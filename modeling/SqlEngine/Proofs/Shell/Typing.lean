import SqlEngine.Proofs.Engine.History
import SqlEngine.Proofs.Engine.Tidying
import SqlEngine.Shell

/-!
# Typing a script into the shell

The shell runs what has been typed whenever a line ends in a semicolon. If these semicolons end
statements, a script can be typed line by line: what the shell runs one after another is the script
with its lines trimmed and without the empty ones. It does what the script does, unless a string or
a quoted name that goes over the end of a line is trimmed as well. A line that ends in a semicolon
of a string or a comment is run too early.
-/
namespace SqlEngine

open Script

theorem Engine.runStatements_append (engine : Engine) (raws further : List String) :
    engine.runStatements (raws ++ further) =
      ((engine.runStatements raws).1 ++ ((engine.runStatements raws).2.runStatements further).1,
        ((engine.runStatements raws).2.runStatements further).2) := by
  induction raws generalizing engine with
  | nil => rfl
  | cons raw rest ih =>
    rw [List.cons_append, runStatements_cons, runStatements_cons, ih, List.append_assoc]

namespace Shell

/-- What the shell does with some lines, its replies taken together. -/
def feedAll (shell : Shell) : List String → Reply
  | [] => ⟨"", "", some shell⟩
  | typed :: rest =>
    let reply := shell.feed typed
    match reply.next with
    | none => reply
    | some next =>
      let further := next.feedAll rest
      ⟨reply.output ++ further.output, reply.complaint ++ further.complaint, further.next⟩

/-- The reply of the shell when something was run: its records are printed. -/
def ran (shell : Shell) (result : List Record × Engine) : Reply :=
  ⟨shell.printer.print result.1, "", some { shell with engine := result.2, pending := "" }⟩

/-- Behind every line that ends in a semicolon, trimmed, the pass over the lines is in code. -/
def Settled (mode : Mode) : List String → Prop
  | [] => True
  | line :: rest =>
    ((Text.trim line).endsWith ";" = true → modeAfter mode line.toList = .code) ∧
      Settled (modeAfter mode (line.toList ++ ['\n'])) rest

instance Settled.decidable : ∀ (mode : Mode) (lines : List String), Decidable (Settled mode lines)
  | _, [] => inferInstanceAs (Decidable True)
  | mode, line :: rest =>
    have := Settled.decidable (modeAfter mode (line.toList ++ ['\n'])) rest
    inferInstanceAs (Decidable (_ ∧ _))

/-- The line is no command, and it is one line. -/
def IsTyped (line : String) : Prop :=
  '\n' ∉ line.toList ∧ (Text.trim line).startsWith "." = false

instance (line : String) : Decidable (IsTyped line) := inferInstanceAs (Decidable (_ ∧ _))

theorem endsWith_semicolon (s : String) : s.endsWith ";" = true ↔ [';'] <:+ s.toList := by
  rw [String.endsWith_eq_endsWith_toSlice, String.Slice.endsWith_string_iff, String.copy_toSlice]
  rfl

theorem isEmpty_trim (line : String) :
    (Text.trim line).isEmpty = true ↔ Text.trimChars line.toList = [] := by
  rw [String.isEmpty_iff, ← String.toList_inj, Text.toList_trim]
  rfl

theorem endsWith_semicolon_trim (line : String) :
    (Text.trim line).endsWith ";" = true ↔ [';'] <:+ Text.trimChars line.toList := by
  rw [endsWith_semicolon, Text.toList_trim]

/-- A line is put behind the lines that are pending. -/
theorem pending_append {pending line : String} {kept : List (List Char)}
    (h : pending = String.ofList (ended kept)) :
    pending ++ Text.trim line ++ "\n" =
      String.ofList (ended (kept ++ [Text.trimChars line.toList])) := by
  rw [ended_concat, String.ofList_append, String.ofList_append, ← h, ← Text.toList_trim,
    String.ofList_toList]

section Feeding

variable (shell : Shell) {line : String} (h : IsTyped line)
include h

theorem feed_empty (hempty : Text.trimChars line.toList = []) :
    shell.feed line = ⟨"", "", some shell⟩ := by
  rw [feed, h.2, if_neg (by simp), if_pos ((isEmpty_trim line).2 hempty)]

variable {kept : List (List Char)} (hpending : shell.pending = String.ofList (ended kept))
  (hempty : Text.trimChars line.toList ≠ [])
include hpending hempty

theorem feed_open (hend : ¬ [';'] <:+ Text.trimChars line.toList) :
    shell.feed line = ⟨"", "", some { shell with
      pending := String.ofList (ended (kept ++ [Text.trimChars line.toList])) }⟩ := by
  have hopen : ¬ (Text.trim line).endsWith ";" = true := mt (endsWith_semicolon_trim line).1 hend
  rw [feed, h.2, if_neg (by simp), if_neg (mt (isEmpty_trim line).1 hempty),
    pending_append hpending]
  simp [hopen]

theorem feed_semicolon (hend : [';'] <:+ Text.trimChars line.toList) :
    shell.feed line = shell.ran (shell.engine.execute
      (String.ofList (ended (kept ++ [Text.trimChars line.toList])))) := by
  have hsemicolon := (endsWith_semicolon_trim line).2 hend
  rw [feed, h.2, if_neg (by simp), if_neg (mt (isEmpty_trim line).1 hempty),
    pending_append hpending]
  simp [hsemicolon, goOn, run, ran]

end Feeding

theorem feedAll_cons {shell next : Shell} {line output complaint : String} (rest : List String)
    (h : shell.feed line = ⟨output, complaint, some next⟩) :
    shell.feedAll (line :: rest) =
      ⟨output ++ (next.feedAll rest).output, complaint ++ (next.feedAll rest).complaint,
        (next.feedAll rest).next⟩ := by
  rw [feedAll, h]

/-- A line that is only collected, or that is empty, leaves the reply to those behind it. -/
theorem feedAll_silent {shell next : Shell} {line : String} {rest : List String}
    (h : shell.feed line = ⟨"", "", some next⟩) :
    shell.feedAll (line :: rest) = next.feedAll rest := by
  rw [feedAll_cons rest h, String.empty_append, String.empty_append]

/-- What is run one part after another is replied to as if it was run at once. -/
theorem feedAll_ran {shell : Shell} {line : String} {rest : List String}
    {first second : List Record × Engine} (h : shell.feed line = shell.ran first)
    (hrest : ({ shell with engine := first.2, pending := "" } : Shell).feedAll rest =
      shell.ran second) :
    shell.feedAll (line :: rest) = shell.ran (first.1 ++ second.1, second.2) := by
  rw [feedAll_cons rest h, hrest, ran, ran, Printer.print_append, String.empty_append]

/-- Behind a line the pass is in the mode that the trimmed line leads to, and in no line comment. -/
theorem modeAfter_line (kept : List (List Char)) {line : List Char} (hline : '\n' ∉ line) :
    modeAfter (modeAfter .code (ended kept)) line =
        modeAfter .code (ended kept ++ Text.trimChars line) ∧
      modeAfter (modeAfter .code (ended kept)) (line ++ ['\n']) =
        modeAfter .code (ended kept ++ Text.trimChars line ++ ['\n']) := by
  obtain ⟨hcomment, happend⟩ := modeAfter_ended kept
  have hcode : Mode.code.Proper := trivial
  have hproper := proper_modeAfter hcode (ended kept)
  have htrim : modeAfter (modeAfter .code (ended kept)) line =
      modeAfter .code (ended kept ++ Text.trimChars line) := by
    rw [happend, modeAfter_trimChars hproper hcomment hline]
  refine ⟨htrim, ?_⟩
  rw [modeAfter_newline hproper, htrim, modeAfter_newline hcode]

theorem Settled.cons {kept : List (List Char)} {line : String} {rest : List String}
    (h : Settled (modeAfter .code (ended kept)) (line :: rest)) (hline : '\n' ∉ line.toList) :
    ([';'] <:+ Text.trimChars line.toList →
        modeAfter .code (ended kept ++ Text.trimChars line.toList) = .code) ∧
      Settled (modeAfter .code (ended (kept ++ [Text.trimChars line.toList]))) rest := by
  obtain ⟨hmode, hmode'⟩ := modeAfter_line kept hline
  obtain ⟨hsemicolon, hrest⟩ := h
  rw [hmode] at hsemicolon
  rw [hmode', ← ended_concat] at hrest
  exact ⟨fun hend => hsemicolon ((endsWith_semicolon_trim line).2 hend), hrest⟩

/-- An empty line changes no mode, and neither does one behind which the pass is in code. -/
theorem modeAfter_ended_concat {kept : List (List Char)} {line : List Char}
    (h : line = [] ∨ modeAfter .code (ended kept ++ line) = .code) :
    modeAfter .code (ended (kept ++ [line])) = modeAfter .code (ended kept ++ line) := by
  have hcode : Mode.code.Proper := trivial
  rw [ended_concat, modeAfter_newline hcode]
  refine afterBlank_of_ne (.inl ?_)
  rcases h with rfl | h
  · rw [List.append_nil]
    exact (modeAfter_ended kept).1
  · rw [h]
    exact Mode.noConfusion

/-- What is typed up to a semicolon that ends a statement can be run before the rest. -/
theorem execute_behind_semicolon (engine : Engine) {kept : List (List Char)} {line : List Char}
    (hend : [';'] <:+ line) (hcode : modeAfter .code (ended kept ++ line) = .code)
    (further : List (List Char)) :
    let first := engine.execute (String.ofList (ended (kept ++ [line])))
    let second := first.2.execute (String.ofList (ended further))
    engine.execute (String.ofList (ended (kept ++ line :: further))) =
      (first.1 ++ second.1, second.2) := by
  obtain ⟨front, rfl⟩ := hend
  rw [← List.append_assoc] at hcode
  have hsplit := statementChars_behind_semicolon hcode (ended further)
  have hwhole : ended (kept ++ (front ++ [';']) :: further) =
      ended kept ++ front ++ ';' :: '\n' :: ended further := by
    rw [List.append_cons, ended_append, ended_concat]
    simp
  have hfirst : ended (kept ++ [front ++ [';']]) = ended kept ++ front ++ [';', '\n'] := by
    rw [ended_concat]
    simp
  have hstatements : statements (String.ofList (ended (kept ++ (front ++ [';']) :: further))) =
      statements (String.ofList (ended (kept ++ [front ++ [';']]))) ++
        statements (String.ofList (ended further)) := by
    simp only [statements, String.toList_ofList, hwhole, hfirst, hsplit, List.map_append]
  intro first second
  rw [Engine.execute, hstatements, Engine.runStatements_append]
  rfl

/-- The lines, trimmed and without the empty ones, with the lines that are pending in front of
them, are run as one script, if all of it is run in the end. -/
theorem feedAll_ended (shell : Shell) {kept : List (List Char)} {lines : List String}
    (hpending : shell.pending = String.ofList (ended kept))
    (hkept : ∀ line ∈ kept, ¬ [';'] <:+ line) (htyped : ∀ line ∈ lines, IsTyped line)
    (hsettled : Settled (modeAfter .code (ended kept)) lines)
    (hlast : ∀ last ∈ (kept ++ trimmedLines (lines.map String.toList)).getLast?, [';'] <:+ last) :
    shell.feedAll lines =
      shell.ran (shell.engine.execute
        (String.ofList (ended (kept ++ trimmedLines (lines.map String.toList))))) := by
  induction lines generalizing shell kept with
  | nil =>
    have hnone : kept = [] := by
      rcases List.eq_nil_or_concat kept with hnil | ⟨front, last, hconcat⟩
      · exact hnil
      · have hmem : last ∈ (kept ++ trimmedLines ([].map String.toList)).getLast? := by
          simp [hconcat, trimmedLines]
        have hin : last ∈ kept := by simp [hconcat]
        exact absurd (hlast last hmem) (hkept last hin)
    subst hnone
    obtain ⟨printer, engine, pending⟩ := shell
    obtain rfl : pending = "" := hpending
    rfl
  | cons line rest ih =>
    obtain ⟨hline, hrest⟩ := List.forall_mem_cons.1 htyped
    obtain ⟨hsemicolon, hsettled⟩ := hsettled.cons hline.1
    rw [List.map_cons, trimmedLines_cons] at hlast ⊢
    by_cases hnil : Text.trimChars line.toList = []
    · rw [modeAfter_ended_concat (.inl hnil), hnil, List.append_nil] at hsettled
      rw [if_pos hnil] at hlast ⊢
      rw [feedAll_silent (shell.feed_empty hline hnil)]
      exact ih shell hpending hkept hrest hsettled hlast
    · rw [if_neg hnil] at hlast ⊢
      by_cases hend : [';'] <:+ Text.trimChars line.toList
      · have hcode := hsemicolon hend
        have hlast' : ∀ last ∈ (trimmedLines (rest.map String.toList)).getLast?,
            [';'] <:+ last := by
          intro last hmem
          refine hlast last ?_
          rw [Option.mem_def] at hmem
          simp [List.getLast?_append, List.getLast?_cons, hmem]
        have hfeed := shell.feed_semicolon hline hpending hnil hend
        have hwhole := execute_behind_semicolon shell.engine hend hcode
          (trimmedLines (rest.map String.toList))
        rw [modeAfter_ended_concat (.inr hcode), hcode] at hsettled
        dsimp only at hwhole
        rw [hwhole]
        -- what the first part comes to is of no importance here
        generalize shell.engine.execute
          (String.ofList (ended (kept ++ [Text.trimChars line.toList]))) = first at hfeed ⊢
        have hnone : "" = String.ofList (ended []) := rfl
        have hbehind := ih { shell with engine := first.2, pending := "" } hnone (by simp) hrest
          hsettled hlast'
        exact feedAll_ran hfeed hbehind
      · have hkept' : ∀ l ∈ kept ++ [Text.trimChars line.toList], ¬ [';'] <:+ l :=
          List.forall_mem_append.2 ⟨hkept, by simpa using hend⟩
        rw [List.append_cons] at hlast ⊢
        rw [feedAll_silent (shell.feed_open hline hpending hnil hend)]
        exact ih _ rfl hkept' hrest hsettled hlast

/-- If a text ends in a semicolon, so does its last line that is not empty. -/
theorem last_of_endsWith {lines : List String}
    (h : (Text.trim ("\n".intercalate lines)).endsWith ";" = true) :
    ∀ last ∈ (trimmedLines (lines.map String.toList)).getLast?, [';'] <:+ last := by
  intro last hlast
  rw [Option.mem_def] at hlast
  rw [endsWith_semicolon, Text.toList_trim, String.toList_intercalate] at h
  have hne : lines.map String.toList ≠ [] := by
    intro hnil
    rw [hnil] at hlast
    cases hlast
  have hright : Text.trimRight (ended (lines.map String.toList)) =
      Text.trimRight (['\n'].intercalate (lines.map String.toList)) := by
    rw [ended_eq_intercalate hne]
    exact List.rdropWhile_concat_pos _ _ _ (by decide)
  have hsuffix : [';'] <:+ Text.trimRight (ended (lines.map String.toList)) := by
    rw [hright]
    refine h.trans ?_
    change Text.trimRight (Text.trimLeft (['\n'].intercalate (lines.map String.toList))) <:+ _
    rw [← trimLeft_trimRight]
    exact List.dropWhile_suffix _
  have hends := getLast?_trimmedLines (lines.map String.toList)
  obtain ⟨front, hfront⟩ := hsuffix
  rw [hlast, ← hfront, List.getLast?_concat, Option.bind_some] at hends
  obtain ⟨behind, rfl⟩ := List.getLast?_eq_some_iff.1 hends
  exact ⟨behind, rfl⟩

/-- The statements of a script are typed with their lines trimmed, and white space at the ends of
lines is lost. Where this changes no token, the lines do what the script does. -/
theorem feedAll_script (shell : Shell) (hpending : shell.pending = "") (lines : List String)
    (htyped : ∀ line ∈ lines, IsTyped line) (hsettled : Settled .code lines)
    (hend : (Text.trim ("\n".intercalate lines)).endsWith ";" = true) :
    let script := "\n".intercalate lines
    shell.feedAll lines = shell.ran (shell.engine.runStatements ((statements script).map tidy)) ∧
      ((∀ s ∈ statements script, tidy s = s) →
        shell.feedAll lines = shell.ran (shell.engine.execute script)) ∧
      ((∀ s ∈ statements script, Steady s) →
        ∃ records, shell.feedAll lines = shell.ran (records, (shell.engine.execute script).2) ∧
          List.Forall₂ Record.Alike (shell.engine.execute script).1 records) := by
  intro script
  have hchars : script.toList = ['\n'].intercalate (lines.map String.toList) :=
    String.toList_intercalate
  have hlines : ∀ line ∈ lines.map String.toList, '\n' ∉ line :=
    List.forall_mem_map.2 fun line hline => (htyped line hline).1
  have hstatements :
      statements (String.ofList (ended (trimmedLines (lines.map String.toList)))) =
        (statements script).map tidy := by
    have htidy : String.ofList ∘ tidyChars = tidy ∘ String.ofList := by
      funext cs
      simp [tidy]
    rw [statements, String.toList_ofList, statementChars_trimmedLines hlines, statements, hchars,
      statementChars_intercalate, List.map_map, List.map_map, htidy]
  have hnone : shell.pending = String.ofList (ended []) := hpending
  have hall := shell.feedAll_ended hnone (by simp) htyped hsettled (last_of_endsWith hend)
  rw [List.nil_append, Engine.execute, hstatements] at hall
  refine ⟨hall, fun hkept => ?_, fun hsteady => ?_⟩
  · rw [hall, Engine.execute, List.map_congr_left hkept, List.map_id']
  · obtain ⟨hengine, hrecords⟩ := shell.engine.runStatements_tidy hsteady
    refine ⟨_, ?_, hrecords⟩
    rw [hall, Engine.execute, ← hengine]

/-- A table is created over several lines, one of them empty, and behind a text with a semicolon in
it a second statement begins on the same line. -/
theorem feedAll_script_indented :
    let shell := Shell.start false .standard
    let lines := ["CREATE TABLE t(", "", "  v );", "INSERT INTO t VALUES('a;'); DROP", "  TABLE t;"]
    let script := "\n".intercalate lines
    shell.feedAll lines = shell.ran (shell.engine.runStatements
        ["CREATE TABLE t(\nv )", "INSERT INTO t VALUES('a;')", "DROP\nTABLE t"]) ∧
      ∃ records, shell.feedAll lines = shell.ran (records, (shell.engine.execute script).2) ∧
        List.Forall₂ Record.Alike (shell.engine.execute script).1 records := by
  intro shell lines script
  have htyped : ∀ line ∈ lines, IsTyped line := by decide +kernel
  have hsettled : Settled .code lines := by decide +kernel
  have hend : (Text.trim script).endsWith ";" = true := by decide +kernel
  have hsteady : ∀ s ∈ statements script, Steady s := by decide +kernel
  have htidy : (statements script).map tidy =
      ["CREATE TABLE t(\nv )", "INSERT INTO t VALUES('a;')", "DROP\nTABLE t"] := by decide +kernel
  obtain ⟨hrun, -, hexecute⟩ := feedAll_script shell rfl lines htyped hsettled hend
  rw [htidy] at hrun
  exact ⟨hrun, hexecute hsteady⟩

/-- A text goes over the end of a line, where it has a semicolon: its INSERT is run too early, and
the row is not there in the end. The lines as one script insert it. -/
theorem feedAll_ne_execute :
    let shell := Shell.start false .standard
    let lines := ["CREATE TABLE t(v);", "INSERT INTO t VALUES('a;", "b');"]
    let script := "\n".intercalate lines
    (∀ line ∈ lines, IsTyped line) ∧ modeAfter .code script.toList = .code ∧
      (Text.trim script).endsWith ";" = true ∧
      (shell.feedAll lines).next.map (·.engine.catalog.summary) = some [("t", 0)] ∧
      (shell.engine.execute script).2.catalog.summary = [("t", 1)] := by
  decide +kernel

end Shell
end SqlEngine
