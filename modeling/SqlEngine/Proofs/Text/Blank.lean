import Mathlib.Data.List.DropRight
import SqlEngine.Text.Blank
import SqlEngine.Text.Letter

/-!
# White space around words and texts

No character of a word is white space. A text is its trimmed part with white space around it, and
trimming a trimmed text changes nothing.
-/
namespace SqlEngine.Text

/-- The code points of white space. -/
def blankCodes : List Nat :=
  List.range' 9 5 ++ [0x20, 0x85, 0xA0, 0x1680] ++ List.range' 0x2000 11 ++
    [0x2028, 0x2029, 0x202F, 0x205F, 0x3000]

theorem mem_blankCodes {c : Char} (h : isBlank c = true) : c.toNat ∈ blankCodes := by
  simp only [isBlank, Bool.or_eq_true, Bool.and_eq_true, decide_eq_true_eq, beq_iff_eq] at h
  simp only [blankCodes, List.mem_append, List.mem_range'_1, List.mem_cons, List.not_mem_nil]
  omega

theorem isBlank_of_continuesWord {c : Char} (h : continuesWord c = true) : isBlank c = false := by
  have htable : ∀ code ∈ blankCodes, continuesWord (Char.ofNat code) = false := by
    decide +kernel
  by_contra hblank
  have hword := htable c.toNat (mem_blankCodes (by simpa using hblank))
  rw [Char.ofNat_toNat, h] at hword
  cases hword

theorem continuesWord_of_startsWord {c : Char} (h : startsWord c = true) :
    continuesWord c = true := by
  rcases Bool.or_eq_true_iff.1 h with hletter | hline
  · simp [continuesWord, hletter]
  · simp [continuesWord, hline]

theorem isBlank_of_isDigit {c : Char} (h : c.isDigit = true) : isBlank c = false := by
  have hrange : 48 ≤ c.toNat ∧ c.toNat ≤ 57 := by
    simpa [Char.isDigit, UInt32.le_iff_toNat_le] using h
  by_contra hblank
  have hcode : c.toNat ∈ blankCodes := mem_blankCodes (by simpa using hblank)
  simp only [blankCodes, List.mem_append, List.mem_range'_1, List.mem_cons,
    List.not_mem_nil, or_false] at hcode
  omega

theorem trimLeft_decompose (cs : List Char) :
    ∃ blanks, (∀ c ∈ blanks, isBlank c = true) ∧ cs = blanks ++ trimLeft cs := by
  refine ⟨cs.takeWhile isBlank, ?_, List.takeWhile_append_dropWhile.symm⟩
  intro c hc
  exact List.mem_takeWhile_imp hc

theorem trimRight_decompose (cs : List Char) :
    ∃ blanks, (∀ c ∈ blanks, isBlank c = true) ∧ cs = trimRight cs ++ blanks := by
  refine ⟨cs.rtakeWhile isBlank, ?_, List.rdropWhile_append_rtakeWhile.symm⟩
  intro c hc
  exact List.mem_rtakeWhile_imp hc

theorem toList_trim (s : String) : (trim s).toList = trimChars s.toList := String.toList_ofList

/-- Cutting white space off the end leaves no white space at the beginning. -/
theorem trimLeft_trimChars (cs : List Char) : trimLeft (trimChars cs) = trimChars cs := by
  rw [trimLeft, List.dropWhile_eq_self_iff]
  intro hpos hblank
  have hfront : trimChars cs <+: trimLeft cs := List.rdropWhile_prefix _ _
  have hlong : 0 < (trimLeft cs).length := Nat.lt_of_lt_of_le hpos hfront.length_le
  have hstart : ¬ isBlank (trimLeft cs)[0] = true :=
    List.dropWhile_eq_self_iff.1 (List.dropWhile_idempotent isBlank cs) hlong
  rw [hfront.getElem hpos] at hblank
  exact hstart hblank

/-- A trimmed text neither begins nor ends with white space. -/
theorem ends_trimChars (cs : List Char) :
    (∀ c ∈ (trimChars cs).head?, isBlank c = false) ∧
      ∀ c ∈ (trimChars cs).getLast?, isBlank c = false := by
  constructor
  · intro c hc
    obtain ⟨rest, hrest⟩ := List.head?_eq_some_iff.1 hc
    have hstart := List.dropWhile_eq_self_iff.1 (trimLeft_trimChars cs)
    simpa [hrest] using hstart
  · intro c hc
    have hne : trimChars cs ≠ [] := by
      intro hnil
      rw [hnil] at hc
      cases hc
    rw [List.getLast?_eq_some_getLast hne, Option.mem_some_iff] at hc
    have hend : ¬ isBlank ((trimChars cs).getLast hne) = true :=
      List.rdropWhile_last_not isBlank (trimLeft cs) hne
    rw [hc] at hend
    exact Bool.eq_false_iff.2 hend

theorem trimChars_trimChars (cs : List Char) : trimChars (trimChars cs) = trimChars cs := by
  have hright : trimRight (trimChars cs) = trimChars cs := List.rdropWhile_idempotent _ _
  rw [trimChars, trimLeft_trimChars, hright]

/-- A text without white space at its ends is its own trimmed form. -/
theorem trimChars_eq_self {cs : List Char} (hhead : ∀ c, cs.head? = some c → isBlank c = false)
    (hlast : ∀ c, cs.getLast? = some c → isBlank c = false) : trimChars cs = cs := by
  have hkept : ∀ ds : List Char, (∀ c, ds.head? = some c → isBlank c = false) →
      trimLeft ds = ds := by
    intro ds hds
    cases ds with
    | nil => rfl
    | cons d rest => simp [trimLeft, hds d rfl]
  have hback : trimLeft cs.reverse = cs.reverse := by
    refine hkept _ fun c hc => hlast c ?_
    rwa [List.head?_reverse] at hc
  rw [trimChars, hkept cs hhead, trimRight, hback, List.reverse_reverse]

end SqlEngine.Text
