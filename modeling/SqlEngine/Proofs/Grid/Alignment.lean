import SqlEngine.Proofs.Computation
import SqlEngine.Proofs.Grid.Places
import SqlEngine.Shell

/-!
# Aligned grids

A table that is printed as a grid has a line for each row and four lines more. The separators of all
lines stand at the same places, since every column is as wide as its widest text, and what is shown
of a value is cut at the limit. Lines are those of the printed text, cut at its newlines; a table
with a newline in a header or a value is not covered, and neither is one without rows, which is
printed as a message.
-/
namespace SqlEngine

section Newlines

/-- A decimal without a fraction mark at its end is written with digits and a point. -/
theorem Number.mem_positional {d : Decimal} {c : Char} (h : c ∈ (d.positional "").toList) :
    c.isDigit = true ∨ c = '.' := by
  have hdigit : ∀ c ∈ d.text.toList, c.isDigit = true := by
    intro c hc
    rw [Decimal.text, String.toList_ofList] at hc
    exact Nat.isDigit_of_mem_toDigits (by decide) (by decide) hc
  have hzeros : ∀ (n : Nat), ∀ c ∈ (zeros n).toList, c.isDigit = true := by
    intro n c hc
    rw [zeros, String.toList_ofList] at hc
    rw [List.eq_of_mem_replicate hc]
    decide
  rw [Decimal.positional] at h
  split at h
  · simp only [String.toList_append, List.mem_append] at h
    rcases h with (h | h) | h
    · exact .inl (hdigit c h)
    · exact .inl (hzeros _ c h)
    · cases h
  · split at h
    · simp only [String.toList_append, String.toList_ofList, List.mem_append] at h
      rcases h with (h | h) | h
      · exact .inl (hdigit c (List.mem_of_mem_take h))
      · exact .inr (List.mem_singleton.1 h)
      · exact .inl (hdigit c (List.mem_of_mem_drop h))
    · simp only [String.toList_append, List.mem_append] at h
      rcases h with (h | h) | h
      · have hfront : c ∈ ['0', '.'] := h
        rcases List.mem_pair.1 hfront with rfl | rfl <;> decide
      · exact .inl (hzeros _ c h)
      · exact .inl (hdigit c h)

theorem Number.newline_notMem_display (x : Float) : '\n' ∉ (display x).toList := by
  rw [display]
  split
  · decide
  · split
    · split <;> decide
    · dsimp only
      split
      · decide
      · rw [String.toList_append, List.mem_append]
        rintro (hsign | hdigits)
        · revert hsign
          rw [signText]
          split <;> decide
        · rcases mem_positional hdigits with h | h
          · revert h
            decide
          · revert h
            decide

/-- Only a text can bring a newline into what is shown of a value. -/
theorem Value.newline_notMem_display {v : Value} (h : ∀ s, v = .text s → '\n' ∉ s.toList) :
    '\n' ∉ v.display.toList := by
  cases v with
  | null => decide
  | number x => exact Number.newline_notMem_display x
  | text s => exact h s rfl

theorem newline_notMem_toString (n : Nat) : '\n' ∉ (toString n).toList := by
  rw [Nat.toString_eq_ofList_toDigits, String.toList_ofList]
  intro h
  have hdigit := Nat.isDigit_of_mem_toDigits (by decide) (by decide) h
  revert hdigit
  decide

/-- Lines without newlines in them are what a printed text is cut into. -/
theorem Printer.splitOn_unlines {lines : List String} (h : ∀ line ∈ lines, '\n' ∉ line.toList) :
    (unlines lines).toList.splitOn '\n' = lines.map String.toList ++ [[]] := by
  induction lines with
  | nil => rfl
  | cons line rest ih =>
    obtain ⟨hline, hrest⟩ := List.forall_mem_cons.1 h
    have hnewline : "\n".toList = ['\n'] := rfl
    rw [unlines_cons, String.toList_append, String.toList_append, hnewline, List.append_assoc,
      List.singleton_append, List.splitOn_append_cons_self_of_not_mem hline, ih hrest]
    rfl

end Newlines

namespace Grid

/-- Every text has room in its width. -/
abbrev HasRoom (widths : List Nat) (texts : List String) : Prop :=
  List.Forall₂ (fun w text => text.length ≤ w) widths texts

/-- No width is smaller than before. -/
abbrev Widened (widths wider : List Nat) : Prop := List.Forall₂ (fun w v => w ≤ v) widths wider

section Widths

/-- The widths with room for one more row. -/
def widen (widths : List Nat) (row : List String) : List Nat :=
  List.zipWith (fun w c => max w c.length) widths row ++ widths.drop row.length

theorem Widened.trans {widths wider widest : List Nat} (h : Widened widths wider)
    (hmore : Widened wider widest) : Widened widths widest :=
  forall₂_comp (fun _ _ _ (hle : _ ≤ _) hmore => Nat.le_trans hle hmore) h hmore

theorem HasRoom.mono {widths wider : List Nat} {texts : List String} (h : HasRoom widths texts)
    (hwider : Widened widths wider) : HasRoom wider texts :=
  forall₂_comp (fun v w text (hle : w ≤ v) (hroom : text.length ≤ w) => Nat.le_trans hroom hle)
    hwider.flip h

theorem widen_spec {widths : List Nat} {row : List String} (h : row.length = widths.length) :
    Widened widths (widen widths row) ∧ HasRoom (widen widths row) row := by
  rw [widen, h, List.drop_length, List.append_nil]
  induction widths generalizing row with
  | nil =>
    obtain rfl := List.length_eq_zero_iff.1 h
    exact ⟨.nil, .nil⟩
  | cons w rest ih =>
    cases row with
    | nil => cases h
    | cons text texts =>
      obtain ⟨hle, hroom⟩ := ih (Nat.succ.inj h)
      exact ⟨.cons (Nat.le_max_left _ _) hle, .cons (Nat.le_max_right _ _) hroom⟩

theorem foldl_widen_spec {cells : List (List String)} {widths : List Nat}
    (h : ∀ row ∈ cells, row.length = widths.length) :
    Widened widths (cells.foldl widen widths) ∧
      ∀ row ∈ cells, HasRoom (cells.foldl widen widths) row := by
  induction cells generalizing widths with
  | nil => exact ⟨List.forall₂_same.2 fun w _ => Nat.le_refl w, List.forall_mem_nil _⟩
  | cons row rest ih =>
    obtain ⟨hrow, hrest⟩ := List.forall_mem_cons.1 h
    obtain ⟨hwider, hroom⟩ := widen_spec hrow
    obtain ⟨hwidest, hothers⟩ := ih fun other hother =>
      (hrest other hother).trans hwider.length_eq
    exact ⟨hwider.trans hwidest, List.forall_mem_cons.2 ⟨hroom.mono hwidest, hothers⟩⟩

/-- The header and all rows have room in the widths of the columns. -/
theorem hasRoom_widths {columns : List String} {cells : List (List String)}
    (h : ∀ row ∈ cells, row.length = columns.length) :
    HasRoom (widths columns cells) columns ∧ ∀ row ∈ cells, HasRoom (widths columns cells) row := by
  have hcells : ∀ row ∈ cells, row.length = (columns.map String.length).length :=
    fun row hrow => (h row hrow).trans (List.length_map _).symm
  obtain ⟨hwider, hrows⟩ := foldl_widen_spec hcells
  have hheader : HasRoom (columns.map String.length) columns :=
    List.forall₂_map_left_iff.2 (List.forall₂_same.2 fun c _ => Nat.le_refl c.length)
  exact ⟨hheader.mono hwider, hrows⟩

end Widths

section Lines

/-- The lengths of the segments in a line of columns with the given widths. -/
def segmentLengths (widths : List Nat) : List Nat :=
  if widths.isEmpty then [0] else widths.map (· + 2)

theorem length_segments {widths : List Nat} {texts : List String}
    (h : texts.map String.length = widths.map (· + 2)) :
    (segments texts).map List.length = segmentLengths widths := by
  cases texts with
  | nil =>
    obtain rfl := List.map_eq_nil_iff.1 h.symm
    rfl
  | cons text rest =>
    have hwidths : widths ≠ [] := by
      rintro rfl
      cases h
    have hlengths : List.length ∘ String.toList = String.length := by
      funext text
      exact String.length_toList
    rw [segments_of_ne_nil (List.cons_ne_nil text rest), List.map_map, hlengths, h,
      segmentLengths, if_neg (by simpa using hwidths)]

theorem length_repeated (c : Char) (n : Nat) : (repeated c n).length = n := by
  rw [repeated, String.length_ofList, List.length_replicate]

theorem toList_padded (width : Nat) (text : String) :
    (padded width text).toList =
      ' ' :: text.toList ++ List.replicate (width - text.length) ' ' ++ [' '] := by
  simp only [padded, repeated, String.toList_append, String.toList_ofList]
  rfl

theorem length_padded {width : Nat} {text : String} (h : text.length ≤ width) :
    (padded width text).length = width + 2 := by
  rw [← String.length_toList, toList_padded, List.length_append, List.length_append,
    List.length_cons, List.length_replicate, String.length_toList, List.length_singleton]
  omega

variable {widths : List Nat} {texts : List String}

theorem map_length_strokes (widths : List Nat) :
    (widths.map fun w => repeated '─' (w + 2)).map String.length = widths.map (· + 2) := by
  rw [List.map_map]
  exact List.map_congr_left fun w _ => length_repeated '─' (w + 2)

theorem HasRoom.map_length_padded (h : HasRoom widths texts) :
    (List.zipWith padded widths texts).map String.length = widths.map (· + 2) := by
  induction h with
  | nil => rfl
  | cons hfirst _ ih =>
    rw [List.zipWith_cons_cons, List.map_cons, List.map_cons, ih, length_padded hfirst]

theorem toList_line (widths : List Nat) (texts : List String) :
    (line widths texts).toList =
      enclosed '│' '│' '│' (segments (List.zipWith padded widths texts)) :=
  toList_enclosed rfl rfl rfl _

/-- The segments of a horizontal line are strokes throughout. -/
theorem eq_stroke_of_mem {segment : List Char} {c : Char}
    (hsegment : segment ∈ segments (widths.map fun w => repeated '─' (w + 2))) (hc : c ∈ segment) :
    c = '─' := by
  rcases mem_segments hsegment with rfl | ⟨text, htext, rfl⟩
  · cases hc
  · obtain ⟨w, -, rfl⟩ := List.mem_map.1 htext
    rw [repeated, String.toList_ofList] at hc
    exact List.eq_of_mem_replicate hc

/-- The separators of a horizontal line are its characters other than the stroke. -/
def RuledAt (places : List Nat) (chars : List Char) : Prop :=
  ∀ i, i ∈ places ↔ ∃ c, chars[i]? = some c ∧ c ≠ '─'

/-- A text stands between separators at two places of a line, filled up with blanks. -/
def StandsBetween (line : List Char) (p q : Nat) (text : List Char) : Prop :=
  ∃ before fill behind,
    line = before ++ '│' :: (' ' :: text ++ List.replicate fill ' ' ++ [' ']) ++ '│' :: behind ∧
      before.length = p ∧ p + text.length + fill + 3 = q

/-- A line has separators at the places and texts between neighbouring ones. -/
structure ShowsAt (places : List Nat) (texts : List (List Char)) (chars : List Char) : Prop where
  separators : ∀ p ∈ places, chars[p]? = some '│'
  texts : ∀ j text, texts[j]? = some text →
    ∃ p q, places[j]? = some p ∧ places[j + 1]? = some q ∧ StandsBetween chars p q text

theorem ruledAt_border {left crossing right : String} {first between last : Char}
    (hfirst : left.toList = [first]) (hbetween : crossing.toList = [between])
    (hlast : right.toList = [last]) (hmarks : first ≠ '─' ∧ between ≠ '─' ∧ last ≠ '─')
    (widths : List Nat) :
    RuledAt (places (segmentLengths widths)) (border left crossing right widths).toList := by
  have hlengths := length_segments (map_length_strokes widths)
  intro i
  rw [border, toList_enclosed hfirst hbetween hlast, ← hlengths]
  exact mem_places_iff (fun segment hsegment c hc => eq_stroke_of_mem hsegment hc) hmarks i

theorem length_border {left crossing right : String} {first between last : Char}
    (hfirst : left.toList = [first]) (hbetween : crossing.toList = [between])
    (hlast : right.toList = [last]) (widths : List Nat) :
    (border left crossing right widths).toList.length =
      lineLength (segmentLengths widths) := by
  rw [border, toList_enclosed hfirst hbetween hlast, length_enclosed,
    length_segments (map_length_strokes widths)]

theorem HasRoom.length_line (h : HasRoom widths texts) :
    (line widths texts).toList.length = lineLength (segmentLengths widths) := by
  rw [toList_line, length_enclosed, length_segments h.map_length_padded]

theorem HasRoom.showsAt_line (h : HasRoom widths texts) :
    ShowsAt (places (segmentLengths widths)) (texts.map String.toList)
      (line widths texts).toList := by
  have hlengths := length_segments h.map_length_padded
  rw [toList_line, ← hlengths]
  constructor
  · intro p hp
    exact getElem?_enclosed '│' hp
  · intro j text htext
    rw [List.getElem?_map] at htext
    obtain ⟨shown, hshown, rfl⟩ := Option.map_eq_some_iff.1 htext
    obtain ⟨w, hw, hroom⟩ := exists_getElem?_of_forall₂ h.flip hshown
    have hpadded : (List.zipWith padded widths texts)[j]? = some (padded w shown) :=
      List.getElem?_zipWith_eq_some.2 ⟨w, shown, hw, hshown, rfl⟩
    have hsegment : (segments (List.zipWith padded widths texts))[j]? =
        some (padded w shown).toList := by
      rw [segments_of_ne_nil (List.ne_nil_of_mem (List.mem_of_getElem? hpadded)),
        List.getElem?_map, hpadded]
      rfl
    obtain ⟨before, behind, hline, hplace, hnext⟩ := exists_segment '│' hsegment
    refine ⟨_, _, hplace, hnext, before, w - shown.length, behind, ?_, rfl, ?_⟩
    · rw [hline, toList_padded]
    · rw [String.length_toList, String.length_toList, length_padded hroom]
      omega

end Lines

section Cells

/-- What is shown of a value under a limit, where a limit below four counts as four. -/
structure Shows (limit : Nat) (v : Value) (text : List Char) : Prop where
  bounded : text.length ≤ max limit 4
  whole : v.display.length ≤ max limit 4 → text = v.display.toList
  cut : max limit 4 < v.display.length →
    ∃ front, front <+: v.display.toList ∧ text = front ++ ['.', '.', '.']

theorem shows_cell (limit : Nat) (v : Value) : Shows limit v (cell limit v).toList := by
  rw [cell]
  split
  · next hlong =>
    have hpoints : "...".toList = ['.', '.', '.'] := rfl
    rw [Script.preview, String.toList_append, String.toList_ofList, hpoints]
    refine ⟨?_, fun hshort => absurd hlong (Nat.not_lt.2 hshort),
      fun _ => ⟨_, List.take_prefix _ _, rfl⟩⟩
    rw [List.length_append, List.length_take, String.length_toList, List.length_cons,
      List.length_cons, List.length_singleton]
    omega
  · next hshort =>
    refine ⟨?_, fun _ => rfl, fun hlong => absurd hlong hshort⟩
    rw [String.length_toList]
    omega

theorem newline_notMem_cell {limit : Nat} {v : Value} (h : '\n' ∉ v.display.toList) :
    '\n' ∉ (cell limit v).toList := by
  intro hmem
  obtain ⟨-, hwhole, hcut⟩ := shows_cell limit v
  by_cases hshort : v.display.length ≤ max limit 4
  · rw [hwhole hshort] at hmem
    exact h hmem
  · obtain ⟨front, hfront, htext⟩ := hcut (Nat.lt_of_not_le hshort)
    rw [htext, List.mem_append] at hmem
    rcases hmem with hmem | hmem
    · exact h (hfront.subset hmem)
    · revert hmem
      decide

end Cells

section Printing

variable {limit : Nat} {l : Listing}

theorem newline_notMem_border {left crossing right : String} {first between last : Char}
    (hfirst : left.toList = [first]) (hbetween : crossing.toList = [between])
    (hlast : right.toList = [last]) (hmarks : '\n' ≠ first ∧ '\n' ≠ between ∧ '\n' ≠ last)
    (widths : List Nat) : '\n' ∉ (border left crossing right widths).toList := by
  rw [border, toList_enclosed hfirst hbetween hlast]
  intro hmem
  rcases mem_enclosed hmem with h | h | h | ⟨segment, hsegment, h⟩
  · exact hmarks.1 h
  · exact hmarks.2.1 h
  · exact hmarks.2.2 h
  · have hstroke := eq_stroke_of_mem hsegment h
    revert hstroke
    decide

theorem newline_notMem_line {widths : List Nat} {texts : List String}
    (h : ∀ text ∈ texts, '\n' ∉ text.toList) : '\n' ∉ (line widths texts).toList := by
  rw [toList_line]
  intro hmem
  have hbar : '\n' ≠ '│' := by decide
  rcases mem_enclosed hmem with hmark | hmark | hmark | ⟨segment, hsegment, hmem⟩
  · exact hbar hmark
  · exact hbar hmark
  · exact hbar hmark
  · rcases mem_segments hsegment with rfl | ⟨shown, hshown, rfl⟩
    · cases hmem
    · obtain ⟨j, hj⟩ := List.getElem?_of_mem hshown
      obtain ⟨w, text, -, htext, rfl⟩ := List.getElem?_zipWith_eq_some.1 hj
      rw [toList_padded, List.mem_append, List.mem_append, List.mem_cons] at hmem
      rcases hmem with ((hblank | hmem) | hblank) | hblank
      · revert hblank
        decide
      · exact h text (List.mem_of_getElem? htext) hmem
      · have hfill := List.eq_of_mem_replicate hblank
        revert hfill
        decide
      · revert hblank
        decide

/-- The lines of a grid with its separators at the given places: horizontal lines above and below
everything and below the header, the header, and a line for each row. -/
structure Aligned (limit : Nat) (l : Listing) (places : List Nat) (grid : List (List Char)) :
    Prop where
  count : grid.length = l.rows.length + 4
  length : ∀ line ∈ grid, ∀ other ∈ grid, line.length = other.length
  rules : ∀ k ∈ [0, 2, l.rows.length + 3], ∃ line, grid[k]? = some line ∧ RuledAt places line
  header : ∃ line, grid[1]? = some line ∧ ShowsAt places (l.columns.map String.toList) line
  rows : ∀ i row, l.rows[i]? = some row → ∃ line texts, grid[i + 3]? = some line ∧
    ShowsAt places texts line ∧ List.Forall₂ (Shows limit) row texts

/-- What is shown of the values, row by row. -/
abbrev shownCells (limit : Nat) (l : Listing) : List (List String) :=
  l.rows.map fun row => row.map (cell limit)

/-- The widths of the columns of a grid. -/
abbrev columnWidths (limit : Nat) (l : Listing) : List Nat := widths l.columns (shownCells limit l)

theorem lines_eq (limit : Nat) (l : Listing) :
    lines limit l = border "┌" "┬" "┐" (columnWidths limit l) ::
      line (columnWidths limit l) l.columns :: border "├" "┼" "┤" (columnWidths limit l) ::
        ((shownCells limit l).map (line (columnWidths limit l)) ++
          [border "└" "┴" "┘" (columnWidths limit l)]) := rfl

section Rectangular

variable (h : ∀ row ∈ l.rows, row.length = l.columns.length)
include h

theorem hasRoom_columnWidths :
    HasRoom (columnWidths limit l) l.columns ∧
      ∀ row ∈ l.rows, HasRoom (columnWidths limit l) (row.map (cell limit)) := by
  have hcells : ∀ texts ∈ shownCells limit l, texts.length = l.columns.length := by
    intro texts htexts
    obtain ⟨row, hrow, rfl⟩ := List.mem_map.1 htexts
    rw [List.length_map]
    exact h row hrow
  obtain ⟨hheader, hrows⟩ := hasRoom_widths hcells
  exact ⟨hheader, fun row hrow => hrows _ (List.mem_map_of_mem hrow)⟩

theorem length_of_mem_lines {text : String} (htext : text ∈ lines limit l) :
    text.toList.length = lineLength (segmentLengths (columnWidths limit l)) := by
  obtain ⟨hheader, hrows⟩ := hasRoom_columnWidths h
  rw [lines_eq, List.mem_cons, List.mem_cons, List.mem_cons, List.mem_append,
    List.mem_singleton] at htext
  rcases htext with rfl | rfl | rfl | hbody | rfl
  · exact length_border rfl rfl rfl _
  · exact hheader.length_line
  · exact length_border rfl rfl rfl _
  · obtain ⟨texts, htexts, rfl⟩ := List.mem_map.1 hbody
    obtain ⟨row, hrow, rfl⟩ := List.mem_map.1 htexts
    exact (hrows row hrow).length_line
  · exact length_border rfl rfl rfl _

omit h in
/-- The lines of the rows stand behind the first three. -/
theorem getElem?_lines {i : Nat} {row : List Value} (hrow : l.rows[i]? = some row) :
    (lines limit l)[i + 3]? = some (line (columnWidths limit l) (row.map (cell limit))) := by
  have hbody : ((shownCells limit l).map (line (columnWidths limit l)))[i]? =
      some (line (columnWidths limit l) (row.map (cell limit))) := by
    rw [List.getElem?_map, List.getElem?_map, hrow]
    rfl
  rw [lines_eq]
  simp only [List.getElem?_cons_succ]
  rw [List.getElem?_append_left (List.getElem?_eq_some_iff.1 hbody).1, hbody]

/-- The lines of a grid are aligned, where each row has as many values as there are columns. -/
theorem aligned_lines : Aligned limit l (places (segmentLengths (columnWidths limit l)))
    ((lines limit l).map String.toList) := by
  obtain ⟨hheader, hrows⟩ := hasRoom_columnWidths h
  constructor
  · rw [lines_eq]
    simp
  · intro chars hchars other hother
    obtain ⟨text, htext, rfl⟩ := List.mem_map.1 hchars
    obtain ⟨another, hanother, rfl⟩ := List.mem_map.1 hother
    rw [length_of_mem_lines h htext, length_of_mem_lines h hanother]
  · intro k hk
    simp only [List.mem_cons, List.not_mem_nil, or_false] at hk
    rcases hk with rfl | rfl | rfl
    · exact ⟨_, rfl, ruledAt_border rfl rfl rfl (by decide) _⟩
    · exact ⟨_, rfl, ruledAt_border rfl rfl rfl (by decide) _⟩
    · refine ⟨(border "└" "┴" "┘" (columnWidths limit l)).toList, ?_,
        ruledAt_border rfl rfl rfl (by decide) _⟩
      rw [lines_eq]
      simp
  · exact ⟨_, rfl, hheader.showsAt_line⟩
  · intro i row hrow
    refine ⟨_, _, ?_, (hrows row (List.mem_of_getElem? hrow)).showsAt_line, ?_⟩
    · rw [List.getElem?_map, getElem?_lines hrow]
      rfl
    · rw [List.map_map]
      exact List.forall₂_map_right_iff.2 (List.forall₂_same.2 fun v _ => shows_cell limit v)

end Rectangular

theorem newline_notMem_lines (hheader : ∀ column ∈ l.columns, '\n' ∉ column.toList)
    (hvalues : ∀ row ∈ l.rows, ∀ v ∈ row, '\n' ∉ v.display.toList) :
    ∀ text ∈ lines limit l, '\n' ∉ text.toList := by
  intro text htext
  rw [lines, List.mem_append, List.mem_append, List.mem_cons, List.mem_cons] at htext
  simp only [List.mem_singleton] at htext
  rcases htext with ((rfl | rfl | rfl) | hbody) | rfl
  · exact newline_notMem_border rfl rfl rfl (by decide) _
  · exact newline_notMem_line hheader
  · exact newline_notMem_border rfl rfl rfl (by decide) _
  · obtain ⟨texts, htexts, rfl⟩ := List.mem_map.1 hbody
    obtain ⟨row, hrow, rfl⟩ := List.mem_map.1 htexts
    refine newline_notMem_line fun text htext => ?_
    obtain ⟨v, hv, rfl⟩ := List.mem_map.1 htext
    exact newline_notMem_cell (hvalues row hrow v hv)
  · exact newline_notMem_border rfl rfl rfl (by decide) _

end Printing
end Grid

/-- A table with rows is printed as an aligned grid and a line with the number of its rows. -/
theorem Printer.print_grid_aligned (settings : Settings) {l : Listing} (hrows : l.rows ≠ [])
    (hwidth : ∀ row ∈ l.rows, row.length = l.columns.length)
    (hheader : ∀ column ∈ l.columns, '\n' ∉ column.toList)
    (hvalues : ∀ row ∈ l.rows, ∀ s, .text s ∈ row → '\n' ∉ s.toList) :
    ∃ places grid, ((⟨false, settings⟩ : Printer).print [.table l]).toList.splitOn '\n' =
        grid ++ [(toString l.rows.length ++ " row(s) returned").toList, []] ∧
      Grid.Aligned settings.cellWidth l places grid := by
  let footer := toString l.rows.length ++ " row(s) returned"
  have hnote : Record.note? l = none := if_neg (by simpa using hrows)
  have hprint : (⟨false, settings⟩ : Printer).print [.table l] =
      unlines (Grid.lines settings.cellWidth l ++ [footer]) := by
    rw [print, List.flatMap_singleton, recordLines, if_neg Bool.false_ne_true]
    dsimp only
    rw [hnote]
  have hshown : ∀ row ∈ l.rows, ∀ v ∈ row, '\n' ∉ v.display.toList := fun row hrow v hv =>
    Value.newline_notMem_display fun s hs => hvalues row hrow s (hs ▸ hv)
  have hfooter : '\n' ∉ footer.toList := by
    have hcount := newline_notMem_toString l.rows.length
    rw [String.toList_append, List.mem_append]
    rintro (hmem | hmem)
    · exact hcount hmem
    · revert hmem
      decide
  have hlines : ∀ text ∈ Grid.lines settings.cellWidth l ++ [footer], '\n' ∉ text.toList := by
    intro text htext
    rcases List.mem_append.1 htext with htext | htext
    · exact Grid.newline_notMem_lines hheader hshown text htext
    · rw [List.mem_singleton.1 htext]
      exact hfooter
  refine ⟨_, _, ?_, Grid.aligned_lines hwidth⟩
  rw [hprint, splitOn_unlines hlines, List.map_append, List.append_assoc]
  rfl

/-- Under a limit of one, text of other scripts is cut to four characters, and a bar in a text is no
separator. -/
theorem Printer.print_grid_aligned_cut :
    let settings : Settings := { Settings.standard with cellWidth := 1 }
    let l : Listing := ⟨["größe", "x"], [[.text "Ärmel", .null], [.text "a│b", .text "λόγος"]]⟩
    l.rows ≠ [] ∧ (∀ row ∈ l.rows, row.length = l.columns.length) ∧
      (∀ column ∈ l.columns, '\n' ∉ column.toList) ∧
      (∀ row ∈ l.rows, ∀ s, .text s ∈ row → '\n' ∉ s.toList) ∧
      Grid.lines 1 l = ["┌───────┬──────┐", "│ größe │ x    │", "├───────┼──────┤",
        "│ Ä...  │ NULL │", "│ a│b   │ λ... │", "└───────┴──────┘"] ∧
      ∃ places grid, ((⟨false, settings⟩ : Printer).print [.table l]).toList.splitOn '\n' =
          grid ++ ["2 row(s) returned".toList, []] ∧ Grid.Aligned 1 l places grid := by
  intro settings l
  have hrows : l.rows ≠ [] := List.cons_ne_nil _ _
  have hwidth : ∀ row ∈ l.rows, row.length = l.columns.length := by decide
  have hheader : ∀ column ∈ l.columns, '\n' ∉ column.toList := by decide
  have hvalues : ∀ row ∈ l.rows, ∀ s, .text s ∈ row → '\n' ∉ s.toList := by
    intro row hrow s hs
    simp only [l, List.mem_cons, List.not_mem_nil, or_false] at hrow
    rcases hrow with rfl | rfl <;>
      simp only [List.mem_cons, List.not_mem_nil, or_false, Value.text.injEq, reduceCtorEq] at hs
    · subst hs
      decide
    · rcases hs with rfl | rfl <;> decide
  have hfooter : (toString l.rows.length ++ " row(s) returned").toList =
      "2 row(s) returned".toList := by decide
  obtain ⟨places, grid, hprint, haligned⟩ :=
    print_grid_aligned settings hrows hwidth hheader hvalues
  rw [hfooter] at hprint
  exact ⟨hrows, hwidth, hheader, hvalues, by decide, places, grid, hprint, haligned⟩

end SqlEngine
