import SqlEngine.Text.Case

/-!
# The small form is a fixed point

No letter of a small form has another small form, so taking the small form twice is taking it once,
and no capital ASCII letter is left in it. Names in small letters are therefore the same name only
when they are equal, although names are compared without regard to the case of ASCII letters; and
names that are the same have the same small form.
-/
namespace SqlEngine.Text

/-- No code point that `run` moves to is covered by `other`: the two lie apart, or they take turns
between the same bounds. -/
def CaseRun.movesClearOf (run other : CaseRun) : Bool :=
  Nat.blt (run.move run.last) other.first || (Nat.blt other.last (run.move run.first) ||
    ((Nat.beq (run.step % 2) 0 || Nat.beq run.first run.last) && (Nat.beq (other.step % 2) 0 &&
      Nat.beq ((run.move run.first + other.first) % 2) 1)))

/-- The code points whose small form is another one. -/
def capitalRuns : List CaseRun := ⟨0x41, 0x5A, 1, 32⟩ :: ⟨0x130, 0x130, 1, 0⟩ :: lowerRuns

/-- A character is a capital when its small form is another one. -/
def isCapital (c : Char) : Bool := capitalRuns.any (·.covers c.toNat)

/-- The runs begin behind the ASCII letters, and what they move to is no capital. -/
theorem lowerRuns_moveClear :
    (lowerRuns.all fun run => Nat.ble 128 run.first &&
      (decide (0 ≤ (run.first : Int) + run.shift) && capitalRuns.all run.movesClearOf)) =
        true := by
  decide +kernel

theorem movesClear_of_mem {run : CaseRun} (h : run ∈ lowerRuns) :
    128 ≤ run.first ∧ 0 ≤ (run.first : Int) + run.shift ∧
      capitalRuns.all run.movesClearOf = true := by
  have hrun := List.all_eq_true.1 lowerRuns_moveClear run h
  rwa [Bool.and_eq_true, Bool.and_eq_true, Nat.ble_eq, decide_eq_true_eq] at hrun

theorem CaseRun.not_covers_move {run other : CaseRun} {code : Nat}
    (bounded : 0 ≤ (run.first : Int) + run.shift) (clear : run.movesClearOf other = true)
    (covered : run.covers code = true) : other.covers (run.move code) = false := by
  simp only [covers, Bool.and_eq_true, decide_eq_true_eq, beq_iff_eq] at covered
  obtain ⟨⟨hfirst, hlast⟩, hstep⟩ := covered
  have hcode : run.move run.first + (code - run.first) = run.move code := by
    simp only [move, Int.ofNat_eq_natCast]
    omega
  have hle : run.move code ≤ run.move run.last := by
    simp only [move, Int.ofNat_eq_natCast]
    omega
  rw [Bool.eq_false_iff]
  intro hcov
  simp only [covers, Bool.and_eq_true, decide_eq_true_eq, beq_iff_eq] at hcov
  obtain ⟨⟨hof, hol⟩, hos⟩ := hcov
  simp only [movesClearOf, Bool.or_eq_true, Bool.and_eq_true, Nat.blt_eq, Nat.beq_eq] at clear
  rcases clear with below | above | ⟨even, oeven, odd⟩
  · omega
  · omega
  · have hpar : (code - run.first) % 2 = 0 := by
      rcases even with even | single
      · have := Nat.mod_mod_of_dvd (code - run.first) (Nat.dvd_of_mod_eq_zero even)
        omega
      · omega
    have := Nat.mod_mod_of_dvd (run.move code - other.first) (Nat.dvd_of_mod_eq_zero oeven)
    omega

theorem isCapital_ofNat {code : Nat} (h : capitalRuns.any (·.covers code) = false) :
    isCapital (Char.ofNat code) = false := by
  by_cases hvalid : code.isValidChar
  · have hchar : Char.ofNat code = Char.ofNatAux code hvalid := dif_pos hvalid
    rw [hchar]
    exact h
  · have hchar : Char.ofNat code = Char.ofNat 0 := dif_neg hvalid
    rw [hchar]
    decide

/-- The capital ASCII letters are capitals. -/
theorem not_upper_of_not_capital {c : Char} (h : isCapital c = false) :
    ¬ (65 ≤ c.toNat ∧ c.toNat ≤ 90) := by
  simp only [isCapital, capitalRuns, List.any_cons, Bool.or_eq_false_iff] at h
  intro hle
  have hcov : CaseRun.covers ⟨0x41, 0x5A, 1, 32⟩ c.toNat = true := by
    simp only [CaseRun.covers, Bool.and_eq_true, decide_eq_true_eq, beq_iff_eq, Nat.mod_one,
      and_true]
    exact hle
  rw [h.1] at hcov
  cases hcov

theorem toLower_of_not_capital {c : Char} (h : isCapital c = false) : c.toLower = c := by
  refine dif_neg ?_
  intro hup
  exact not_upper_of_not_capital h
    ⟨UInt32.le_iff_toNat_le.1 hup.1, UInt32.le_iff_toNat_le.1 hup.2⟩

theorem toNat_toLower (c : Char) :
    c.toLower.toNat = if 65 ≤ c.toNat ∧ c.toNat ≤ 90 then c.toNat + 32 else c.toNat := by
  unfold Char.toLower
  split
  · next h =>
    have hlo : 65 ≤ c.toNat := UInt32.le_iff_toNat_le.1 h.1
    have hhi : c.toNat ≤ 90 := UInt32.le_iff_toNat_le.1 h.2
    rw [if_pos ⟨hlo, hhi⟩]
    have hval : c.val.toNat = c.toNat := rfl
    have hsum : (c.val + ('a'.val - 'A'.val)).toNat = (c.val.toNat + 32) % 2 ^ 32 :=
      UInt32.toNat_add _ _
    change (c.val + ('a'.val - 'A'.val)).toNat = c.toNat + 32
    omega
  · next h =>
    rw [if_neg]
    intro hle
    exact h ⟨UInt32.le_iff_toNat_le.2 hle.1, UInt32.le_iff_toNat_le.2 hle.2⟩

theorem isCapital_toLower {c : Char} (h : c.toNat < 128) : isCapital c.toLower = false := by
  have hcode := toNat_toLower c
  have hascii : c.toLower.toNat < 128 ∧ ¬ (65 ≤ c.toLower.toNat ∧ c.toLower.toNat ≤ 90) := by
    split at hcode <;> omega
  rw [isCapital, List.any_eq_false]
  intro run hrun
  simp only [CaseRun.covers, Bool.and_eq_true, decide_eq_true_eq]
  rcases List.mem_cons.1 hrun with rfl | hrun
  · exact fun hcovers => hascii.2 hcovers.1
  · rcases List.mem_cons.1 hrun with rfl | hrun
    · exact fun hcovers => absurd hcovers.1.1 (by dsimp only; omega)
    · have hfirst := (movesClear_of_mem hrun).1
      omega

theorem lowerChar_of_not_capital {c : Char} (h : isCapital c = false) : lowerChar c = [c] := by
  have hruns : lowerRuns.find? (·.covers c.toNat) = none := by
    simp only [isCapital, capitalRuns, List.any_cons, Bool.or_eq_false_iff] at h
    rw [List.find?_eq_none]
    simpa using h.2.2
  have hdot : c.toNat ≠ 0x130 := by
    intro hdot
    rw [isCapital, hdot] at h
    revert h
    decide
  rw [lowerChar]
  split
  · rw [toLower_of_not_capital h]
  · rw [moveBy, hruns]

/-- The small form of a character holds no capital. -/
theorem not_capital_of_mem_lowerChar {c d : Char} (h : d ∈ lowerChar c) : isCapital d = false := by
  rw [lowerChar] at h
  split at h
  · next hascii =>
    rw [List.mem_singleton.1 h]
    exact isCapital_toLower hascii
  · split at h
    · have hletter : isCapital 'i' = false := by decide
      have hdot : isCapital (Char.ofNat 0x307) = false := by decide
      simp only [List.mem_cons, List.not_mem_nil, or_false] at h
      rcases h with rfl | rfl
      · exact hletter
      · exact hdot
    · next hascii hdot =>
      rw [List.mem_singleton.1 h, moveBy]
      cases hfind : lowerRuns.find? (·.covers c.toNat) with
      | some run =>
        have hrun := List.mem_of_find?_eq_some hfind
        have hcov : run.covers c.toNat = true := by
          simpa only using List.find?_some hfind
        obtain ⟨-, hbound, hclear⟩ := movesClear_of_mem hrun
        apply isCapital_ofNat
        rw [List.any_eq_false]
        intro other hother
        rw [CaseRun.not_covers_move hbound (List.all_eq_true.1 hclear other hother) hcov]
        exact Bool.false_ne_true
      | none =>
        have hup : CaseRun.covers ⟨0x41, 0x5A, 1, 32⟩ c.toNat = false := by
          simp only [CaseRun.covers, Bool.and_eq_false_iff, decide_eq_false_iff_not]
          omega
        have hdot' : CaseRun.covers ⟨0x130, 0x130, 1, 0⟩ c.toNat = false := by
          simp only [CaseRun.covers, Bool.and_eq_false_iff, decide_eq_false_iff_not]
          omega
        simp only [isCapital, capitalRuns, List.any_cons, hup, hdot', Bool.false_or]
        simpa using hfind

theorem not_capital_of_mem_lowerAfter {before cs : List Char} {d : Char}
    (h : d ∈ lowerAfter before cs) : isCapital d = false := by
  induction cs generalizing before with
  | nil => cases h
  | cons c rest ih =>
    rw [lowerAfter, List.mem_append] at h
    rcases h with h | h
    · split at h
      · rw [List.mem_singleton.1 h, lowerSigma]
        split <;> decide
      · exact not_capital_of_mem_lowerChar h
    · exact ih h

/-- A text without capitals is its own small form. -/
theorem lowerAfter_of_not_capital {before cs : List Char}
    (h : ∀ d ∈ cs, isCapital d = false) : lowerAfter before cs = cs := by
  induction cs generalizing before with
  | nil => rfl
  | cons c rest ih =>
    have hc := h c List.mem_cons_self
    have hsigma : c ≠ 'Σ' := by
      rintro rfl
      revert hc
      decide
    rw [lowerAfter, if_neg hsigma, lowerChar_of_not_capital hc,
      ih fun d hd => h d (List.mem_cons_of_mem c hd)]
    rfl

theorem not_capital_of_mem_lower {s : String} {d : Char} (h : d ∈ (lower s).toList) :
    isCapital d = false := by
  rw [lower, String.toList_ofList] at h
  exact not_capital_of_mem_lowerAfter h

/-- Taking the small form twice is taking it once. -/
theorem lower_lower (s : String) : lower (lower s) = lower s := by
  conv => lhs; rw [lower]
  rw [lowerAfter_of_not_capital fun d hd => not_capital_of_mem_lower hd, String.ofList_toList]

theorem toNat_toUpper (c : Char) :
    c.toUpper.toNat = if 97 ≤ c.toNat ∧ c.toNat ≤ 122 then c.toNat - 32 else c.toNat := by
  unfold Char.toUpper
  split
  · next h =>
    have hlo : 97 ≤ c.toNat := UInt32.le_iff_toNat_le.1 h.1
    have hhi : c.toNat ≤ 122 := UInt32.le_iff_toNat_le.1 h.2
    rw [if_pos ⟨hlo, hhi⟩]
    have hval : c.val.toNat = c.toNat := rfl
    have hsum : (c.val + ('A'.val - 'a'.val)).toNat = (c.val.toNat + 4294967264) % 2 ^ 32 :=
      UInt32.toNat_add _ _
    change (c.val + ('A'.val - 'a'.val)).toNat = c.toNat - 32
    omega
  · next h =>
    rw [if_neg]
    intro hle
    exact h ⟨UInt32.le_iff_toNat_le.2 hle.1, UInt32.le_iff_toNat_le.2 hle.2⟩

theorem eq_of_toUpper_eq {c d : Char} (hc : isCapital c = false) (hd : isCapital d = false)
    (h : c.toUpper = d.toUpper) : c = d := by
  have hnat := congrArg Char.toNat h
  rw [toNat_toUpper, toNat_toUpper] at hnat
  have hc := not_upper_of_not_capital hc
  have hd := not_upper_of_not_capital hd
  apply Char.toNat_inj.1
  split at hnat <;> split at hnat <;> omega

theorem eq_of_map_toUpper_eq {cs ds : List Char} (hc : ∀ c ∈ cs, isCapital c = false)
    (hd : ∀ d ∈ ds, isCapital d = false) (h : cs.map Char.toUpper = ds.map Char.toUpper) :
    cs = ds := by
  induction cs generalizing ds with
  | nil => exact (List.map_eq_nil_iff.1 h.symm).symm
  | cons c cs ih =>
    cases ds with
    | nil => cases h
    | cons d ds =>
      simp only [List.map_cons, List.cons.injEq] at h
      rw [eq_of_toUpper_eq (hc c List.mem_cons_self) (hd d List.mem_cons_self) h.1,
        ih (fun x hx => hc x (List.mem_cons_of_mem c hx))
          (fun x hx => hd x (List.mem_cons_of_mem d hx)) h.2]

/-- Names in small letters are the same name only when they are equal. -/
theorem eq_of_sameName_lower {a b : String} (h : sameName (lower a) (lower b) = true) :
    lower a = lower b := by
  rw [sameName_iff, upperAscii, upperAscii] at h
  have hlist := congrArg String.toList h
  rw [String.toList_map, String.toList_map] at hlist
  apply String.toList_inj.1
  exact eq_of_map_toUpper_eq (fun c hc => not_capital_of_mem_lower hc)
    (fun d hd => not_capital_of_mem_lower hd) hlist

/-- What the small form of a text looks at in a character. -/
def caseTraits (c : Char) : List Char × Bool × Bool × Bool :=
  (lowerChar c, isCased c, isCaseIgnorable c, c == 'Σ')

theorem caseTraits_letter : ∀ code < 91, 65 ≤ code →
    caseTraits (Char.ofNat (code + 32)) = caseTraits (Char.ofNat code) := by
  decide +kernel

/-- Characters with the same ASCII capital are equal, or one is a capital letter and the other the
small one; the small form of a text does not tell them apart. -/
theorem caseTraits_congr {c d : Char} (h : c.toUpper = d.toUpper) :
    caseTraits c = caseTraits d := by
  have hnat := congrArg Char.toNat h
  rw [toNat_toUpper, toNat_toUpper] at hnat
  have hcases : c.toNat = d.toNat ∨ (65 ≤ d.toNat ∧ d.toNat < 91 ∧ c.toNat = d.toNat + 32) ∨
      (65 ≤ c.toNat ∧ c.toNat < 91 ∧ d.toNat = c.toNat + 32) := by
    split at hnat <;> split at hnat <;> omega
  rcases hcases with heq | ⟨hlow, hhigh, hsmall⟩ | ⟨hlow, hhigh, hsmall⟩
  · rw [Char.toNat_inj.1 heq]
  · have hletter := caseTraits_letter d.toNat hhigh hlow
    rwa [← hsmall, Char.ofNat_toNat, Char.ofNat_toNat] at hletter
  · have hletter := caseTraits_letter c.toNat hhigh hlow
    rw [← hsmall, Char.ofNat_toNat, Char.ofNat_toNat] at hletter
    exact hletter.symm

section SameCapitals

variable {c d : Char} (h : c.toUpper = d.toUpper)
include h

theorem lowerChar_congr : lowerChar c = lowerChar d := congrArg (·.1) (caseTraits_congr h)

theorem isCased_congr : isCased c = isCased d := congrArg (·.2.1) (caseTraits_congr h)

theorem isCaseIgnorable_congr : isCaseIgnorable c = isCaseIgnorable d :=
  congrArg (·.2.2.1) (caseTraits_congr h)

theorem eq_sigma_congr : c = 'Σ' ↔ d = 'Σ' := by
  have hsigma : (c == 'Σ') = (d == 'Σ') := congrArg (·.2.2.2) (caseTraits_congr h)
  rw [← beq_iff_eq, hsigma, beq_iff_eq]

end SameCapitals

theorem meetsCased_congr {cs ds : List Char} (h : cs.map Char.toUpper = ds.map Char.toUpper) :
    meetsCased cs = meetsCased ds := by
  induction cs generalizing ds with
  | nil => rw [List.map_eq_nil_iff.1 h.symm]
  | cons c cs ih =>
    cases ds with
    | nil => cases h
    | cons d ds =>
      obtain ⟨hfirst, hrest⟩ := List.cons.inj h
      have hnext := ih hrest
      simp only [meetsCased] at hnext ⊢
      rw [List.dropWhile_cons, List.dropWhile_cons, isCaseIgnorable_congr hfirst]
      by_cases hskip : isCaseIgnorable d = true
      · rw [if_pos hskip, if_pos hskip]
        exact hnext
      · rw [if_neg hskip, if_neg hskip]
        exact isCased_congr hfirst

theorem lowerAfter_congr {before prior cs ds : List Char}
    (hbefore : before.map Char.toUpper = prior.map Char.toUpper)
    (h : cs.map Char.toUpper = ds.map Char.toUpper) :
    lowerAfter before cs = lowerAfter prior ds := by
  induction cs generalizing before prior ds with
  | nil => rw [List.map_eq_nil_iff.1 h.symm, lowerAfter, lowerAfter]
  | cons c cs ih =>
    cases ds with
    | nil => cases h
    | cons d ds =>
      obtain ⟨hfirst, hrest⟩ := List.cons.inj h
      have hnext : (c :: before).map Char.toUpper = (d :: prior).map Char.toUpper := by
        rw [List.map_cons, List.map_cons, hfirst, hbefore]
      rw [lowerAfter, lowerAfter, ih hnext hrest]
      simp only [eq_sigma_congr hfirst, lowerSigma, meetsCased_congr hbefore,
        meetsCased_congr hrest, lowerChar_congr hfirst]

/-- Names that are the same have the same small form. -/
theorem lower_congr {a b : String} (h : sameName a b = true) : lower a = lower b := by
  rw [sameName_iff, upperAscii, upperAscii] at h
  have hlist := congrArg String.toList h
  rw [String.toList_map, String.toList_map] at hlist
  rw [lower, lower, lowerAfter_congr rfl hlist]

end SqlEngine.Text
