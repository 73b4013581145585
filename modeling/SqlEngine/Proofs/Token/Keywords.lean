import Mathlib.Data.List.Nodup
import SqlEngine.Proofs.Text.SmallForm
import SqlEngine.Token

/-!
# Keywords by their ASCII capitals

A word is a keyword by its small form, in the sense of Unicode. Beyond ASCII only the Kelvin sign
has an ASCII letter as its small form; the small form of the dotted capital I is an i with a dot
behind it. So a word is a keyword without a K exactly when its ASCII capitals are those of the
keyword. A keyword with a K may also be written with a Kelvin sign.
-/
namespace SqlEngine

namespace Text

/-- A small ASCII letter other than k. -/
def IsSmallLetter (c : Char) : Prop := 97 ≤ c.toNat ∧ c.toNat ≤ 122 ∧ c ≠ 'k'

instance : DecidablePred IsSmallLetter := fun _ => inferInstanceAs (Decidable (_ ∧ _))

/-- All but one of the runs move to code points beyond ASCII. -/
theorem lowerRuns_beyond : (lowerRuns.all fun run => Nat.ble 128 (run.move run.first) ||
    (Nat.beq run.first run.last && Nat.beq (run.move run.first) 107)) = true := by
  decide +kernel

theorem not_isSmallLetter_ofNat {code : Nat} (h : 128 ≤ code ∨ code = 107) :
    ¬ IsSmallLetter (Char.ofNat code) := by
  by_cases hvalid : code.isValidChar
  · have hchar : (Char.ofNat code).toNat = code := by
      rw [Char.ofNat, dif_pos hvalid]
      rfl
    rintro ⟨-, hhigh, hk⟩
    rcases h with hbeyond | rfl
    · omega
    · exact hk rfl
  · rw [Char.ofNat, dif_neg hvalid]
    decide

/-- No small ASCII letter but k is the small form of a character beyond ASCII. -/
theorem not_isSmallLetter_moveBy {c : Char} (h : 128 ≤ c.toNat) :
    ¬ IsSmallLetter (moveBy lowerRuns c) := by
  rw [moveBy]
  cases hfind : lowerRuns.find? (·.covers c.toNat) with
  | none =>
    rintro ⟨-, hhigh, -⟩
    have hself : c.toNat ≤ 122 := hhigh
    omega
  | some run =>
    have hrun := List.mem_of_find?_eq_some hfind
    have hcov : run.covers c.toNat = true := by simpa only using List.find?_some hfind
    have hbeyond := List.all_eq_true.1 lowerRuns_beyond run hrun
    obtain ⟨-, hbound, -⟩ := movesClear_of_mem hrun
    simp only [CaseRun.covers, Bool.and_eq_true, decide_eq_true_eq] at hcov
    simp only [Bool.or_eq_true, Bool.and_eq_true, Nat.ble_eq, Nat.beq_eq, CaseRun.move,
      Int.ofNat_eq_natCast] at hbeyond
    apply not_isSmallLetter_ofNat
    simp only [CaseRun.move, Int.ofNat_eq_natCast]
    omega

/-- A small form of small ASCII letters without a k comes from ASCII letters alone. -/
theorem lowerAfter_eq_map {before cs : List Char}
    (h : ∀ d ∈ lowerAfter before cs, IsSmallLetter d) :
    lowerAfter before cs = cs.map Char.toLower := by
  induction cs generalizing before with
  | nil => rfl
  | cons c rest ih =>
    rw [lowerAfter, List.forall_mem_append] at h
    obtain ⟨hfirst, hrest⟩ := h
    have hchar : (if c = 'Σ' then [lowerSigma before rest] else lowerChar c) = [c.toLower] := by
      split at hfirst
      · have hsigma : ¬ IsSmallLetter (lowerSigma before rest) := by
          rw [lowerSigma]
          split <;> decide
        exact absurd (hfirst _ (List.mem_singleton_self _)) hsigma
      · next hsigma =>
        rw [if_neg hsigma]
        rw [lowerChar] at hfirst ⊢
        split at hfirst
        · next hascii => rw [if_pos hascii]
        · next hascii =>
          split at hfirst
          · have hdot : ¬ IsSmallLetter (Char.ofNat 0x307) := by decide
            exact absurd (hfirst _ (List.mem_cons_of_mem _ (List.mem_singleton_self _))) hdot
          · exact absurd (hfirst _ (List.mem_singleton_self _))
              (not_isSmallLetter_moveBy (Nat.not_lt.1 hascii))
    rw [lowerAfter, hchar, ih hrest, List.map_cons, List.singleton_append]

/-- The small form of a text in ASCII is taken character by character. -/
theorem lowerAfter_of_ascii {before cs : List Char} (h : ∀ c ∈ cs, c.toNat < 128) :
    lowerAfter before cs = cs.map Char.toLower := by
  induction cs generalizing before with
  | nil => rfl
  | cons c rest ih =>
    obtain ⟨hascii, hrest⟩ := List.forall_mem_cons.1 h
    have hsigma : c ≠ 'Σ' := by
      rintro rfl
      revert hascii
      decide
    rw [lowerAfter, if_neg hsigma, lowerChar, if_pos hascii, ih hrest, List.map_cons,
      List.singleton_append]

theorem toList_toLower (s : String) : s.toLower.toList = s.toList.map Char.toLower :=
  String.toList_map

theorem toUpper_toLower (c : Char) : c.toLower.toUpper = c.toUpper := by
  apply Char.toNat_inj.1
  rw [toNat_toUpper, toNat_toUpper, toNat_toLower]
  split
  · split_ifs <;> omega
  · rfl

theorem upperAscii_toLower (s : String) : upperAscii s.toLower = upperAscii s := by
  apply String.toList_inj.1
  rw [upperAscii, upperAscii, String.toList_map, String.toList_map, toList_toLower, List.map_map,
    Function.comp_def]
  simp only [toUpper_toLower]

theorem startsWord_of_capital : ∀ code < 123, 65 ≤ code → code ≤ 90 ∨ 97 ≤ code →
    startsWord (Char.ofNat code) = true := by
  decide +kernel

/-- A character whose ASCII capital is a capital letter starts a word. -/
theorem startsWord_of_toUpper {c : Char} (h : 65 ≤ c.toUpper.toNat ∧ c.toUpper.toNat ≤ 90) :
    startsWord c = true := by
  rw [toNat_toUpper] at h
  have hcode : c.toNat < 123 ∧ 65 ≤ c.toNat ∧ (c.toNat ≤ 90 ∨ 97 ≤ c.toNat) := by
    split at h <;> omega
  have hstarts := startsWord_of_capital c.toNat hcode.1 hcode.2.1 hcode.2.2
  rwa [Char.ofNat_toNat] at hstarts

end Text

namespace Keyword

open Text

theorem mem_all (keyword : Keyword) : keyword ∈ all := by
  cases keyword <;> decide

theorem nodup_text : (all.map text).Nodup := by
  decide +kernel

theorem isCapital_text (keyword : Keyword) :
    ∀ c ∈ keyword.text.toList, 65 ≤ c.toNat ∧ c.toNat ≤ 90 := by
  have hall : (keyword.text.toList.all fun c => 65 ≤ c.toNat ∧ c.toNat ≤ 90) = true := by
    cases keyword <;> decide
  simpa only [List.all_eq_true, decide_eq_true_eq] using hall

theorem exists_text_eq (keyword : Keyword) :
    ∃ c rest, keyword.text.toList = c :: rest ∧ 65 ≤ c.toNat ∧ c.toNat ≤ 90 := by
  have hcapitals := keyword.isCapital_text
  cases htext : keyword.text.toList with
  | nil => cases keyword <;> cases htext
  | cons c rest =>
    rw [htext] at hcapitals
    exact ⟨c, rest, rfl, hcapitals c List.mem_cons_self⟩

theorem upperAscii_text (keyword : Keyword) : upperAscii keyword.text = keyword.text := by
  apply String.toList_inj.1
  rw [upperAscii, String.toList_map]
  refine (List.map_congr_left fun c hc => ?_).trans (List.map_id _)
  obtain ⟨hlow, hhigh⟩ := keyword.isCapital_text c hc
  apply Char.toNat_inj.1
  rw [toNat_toUpper, if_neg (by omega), id]

theorem lower_text (keyword : Keyword) : lower keyword.text = keyword.text.toLower := by
  apply String.toList_inj.1
  rw [lower, String.toList_ofList, toList_toLower, lowerAfter_of_ascii]
  intro c hc
  have hcapital := keyword.isCapital_text c hc
  omega

theorem text_injective : Function.Injective text := fun keyword other h =>
  List.inj_on_of_nodup_map nodup_text (mem_all keyword) (mem_all other) h

/-- A word is the keyword that has its small form. -/
theorem ofWord?_eq_some {keyword : Keyword} {word : String} :
    ofWord? word = some keyword ↔ lower word = keyword.text.toLower := by
  constructor
  · intro hword
    have hsmall := List.find?_some hword
    exact (eq_of_beq hsmall).symm
  · intro hword
    have hfound : (ofWord? word).isSome := by
      rw [ofWord?, List.find?_isSome]
      exact ⟨keyword, mem_all keyword, beq_iff_eq.2 hword.symm⟩
    obtain ⟨other, hother⟩ := Option.isSome_iff_exists.1 hfound
    have hsmall : other.text.toLower = keyword.text.toLower := by
      have hfirst := List.find?_some hother
      exact (eq_of_beq hfirst).trans hword
    have hcapitals := congrArg upperAscii hsmall
    rw [upperAscii_toLower, upperAscii_toLower, upperAscii_text, upperAscii_text] at hcapitals
    rw [hother, text_injective hcapitals]

/-- A word is a keyword without a K exactly when it has the ASCII capitals of the keyword. -/
theorem ofWord?_eq_some_iff {keyword : Keyword} (h : 'K' ∉ keyword.text.toList) {word : String} :
    ofWord? word = some keyword ↔ upperAscii word = keyword.text := by
  rw [ofWord?_eq_some]
  constructor
  · intro hword
    have hletters : ∀ d ∈ lowerAfter [] word.toList, IsSmallLetter d := by
      intro d hd
      have hmem : d ∈ (lower word).toList := by rwa [lower, String.toList_ofList]
      rw [hword, toList_toLower] at hmem
      obtain ⟨c, hc, rfl⟩ := List.mem_map.1 hmem
      obtain ⟨hlow, hhigh⟩ := keyword.isCapital_text c hc
      have hcode := toNat_toLower c
      rw [if_pos ⟨hlow, hhigh⟩] at hcode
      refine ⟨by omega, by omega, fun hk => h ?_⟩
      have hcapital : c = 'K' := by
        apply Char.toNat_inj.1
        rw [hk] at hcode
        change 107 = c.toNat + 32 at hcode
        change c.toNat = 75
        omega
      rwa [hcapital] at hc
    have hascii : lower word = word.toLower := by
      apply String.toList_inj.1
      rw [lower, String.toList_ofList, toList_toLower, lowerAfter_eq_map hletters]
    rw [← upperAscii_toLower, ← hascii, hword, upperAscii_toLower, upperAscii_text]
  · intro hword
    have hsame : sameName word keyword.text = true := by
      rw [sameName_iff, hword, upperAscii_text]
    rw [lower_congr hsame, lower_text]

end Keyword
end SqlEngine
