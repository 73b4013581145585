import SqlEngine.Text.CasedTable
import SqlEngine.Text.CaseTable
import SqlEngine.Text.Letter

/-!
# Small and capital forms of a text

The full case mappings of Unicode, which may change the number of characters. The only mapping
that looks at its neighbours is that of the capital sigma, which is written differently at the end
of a word. Language-dependent mappings are not applied.
-/
namespace SqlEngine.Text

/-- A character takes part in case distinctions. -/
def isCased (c : Char) : Bool := inRanges casedRanges c.toNat

/-- A character is passed over when the end of a word is looked for. -/
def isCaseIgnorable (c : Char) : Bool := inRanges caseIgnorableRanges c.toNat

/-- The first character that is not passed over is a cased one. -/
def meetsCased (cs : List Char) : Bool :=
  match cs.dropWhile isCaseIgnorable with
  | [] => false
  | c :: _ => isCased c

/-- The character that a run moves a character to, or the character itself. -/
def moveBy (runs : List CaseRun) (c : Char) : Char :=
  match runs.find? (·.covers c.toNat) with
  | some run => Char.ofNat (run.move c.toNat)
  | none => c

/-- The small form of a character on its own. -/
def lowerChar (c : Char) : List Char :=
  if c.toNat < 128 then [c.toLower]
  else if c.toNat = 0x130 then ['i', Char.ofNat 0x307]
  else [moveBy lowerRuns c]

/-- The small form of a capital sigma between the reversed text before it and the text after it:
the final form exactly when a cased letter comes before and none comes after. -/
def lowerSigma (before after : List Char) : Char :=
  if meetsCased before && !meetsCased after then 'ς' else 'σ'

/-- The small form of `cs`, which follows the reversed text `before`. -/
def lowerAfter (before : List Char) : List Char → List Char
  | [] => []
  | c :: rest =>
    (if c = 'Σ' then [lowerSigma before rest] else lowerChar c) ++ lowerAfter (c :: before) rest

/-- A text in small letters. -/
def lower (s : String) : String := String.ofList (lowerAfter [] s.toList)

/-- The capital form of a character. -/
def upperChar (c : Char) : List Char :=
  if c.toNat < 128 then [c.toUpper]
  else match upperExpansions.find? (·.1 == c.toNat) with
    | some expansion => expansion.2.map Char.ofNat
    | none => [moveBy upperRuns c]

/-- A text in capital letters. -/
def upper (s : String) : String := String.ofList (s.toList.flatMap upperChar)

/-- A text whose ASCII letters, and no others, are capital. -/
def upperAscii (s : String) : String := s.map Char.toUpper

/-- Two texts are the same name when they differ at most in the case of ASCII letters. -/
def sameName (a b : String) : Bool := upperAscii a == upperAscii b

theorem sameName_iff {a b : String} : sameName a b = true ↔ upperAscii a = upperAscii b := by
  simp [sameName]

theorem sameName_eq_map_toUpper (a b : String) :
    sameName a b = (a.toList.map Char.toUpper == b.toList.map Char.toUpper) := by
  rw [Bool.eq_iff_iff, sameName_iff, beq_iff_eq, ← String.toList_inj, upperAscii, upperAscii,
    String.toList_map, String.toList_map]

theorem sameName_refl (a : String) : sameName a a = true := sameName_iff.2 rfl

theorem sameName_comm (a b : String) : sameName a b = sameName b a := by
  simp only [sameName, BEq.comm (a := upperAscii a)]

theorem sameName_trans {a b c : String} (hab : sameName a b = true) (hbc : sameName b c = true) :
    sameName a c = true :=
  sameName_iff.2 ((sameName_iff.1 hab).trans (sameName_iff.1 hbc))

/-- Of two names that are the same, neither is told apart from a third one by the other. -/
theorem sameName_congr {a b : String} (h : sameName a b = true) (c : String) :
    sameName a c = sameName b c := by
  simp only [sameName, sameName_iff.1 h]

end SqlEngine.Text
