import PointerScript.Proofs.Linking

/-! What is reported when a source text does not compile. One message is left in any case. For a line that cannot be
built it gives the number of the line, the first of its kind. For a label that is not defined it gives the name of the
label, the first in the text, but no line: the number is always zero. -/

namespace PointerScript

open SourceLine

/-- The messages of a log that report a failure. -/
def Log.criticals (log : Log) : List String :=
  (log.toList.filter fun r => r.level = .critical).map LogRecord.message

def located (line : Nat) (message : String) : String :=
  "(line " ++ toString line ++ ") " ++ message

/-- The line and the message can be read off a report. -/
theorem located_inj {line line' : Nat} {message message' : String} :
    located line message = located line' message' ↔ line = line' ∧ message = message' := by
  refine ⟨fun h => ?_, by rintro ⟨rfl, rfl⟩; rfl⟩
  have hdigits (n : Nat) (behind : List Char) :
      (Nat.toDigits 10 n ++ ')' :: behind).takeWhile Char.isDigit = Nat.toDigits 10 n := by
    rw [List.takeWhile_append_of_pos fun c hc => Nat.isDigit_of_mem_toDigits (by decide) (by decide) hc]
    exact List.append_nil _
  have htexts : Nat.toDigits 10 line ++ ')' :: ' ' :: message.toList =
      Nat.toDigits 10 line' ++ ')' :: ' ' :: message'.toList := by
    simpa [located, Nat.repr] using congrArg String.toList h
  have hsame : Nat.toDigits 10 line = Nat.toDigits 10 line' := by
    rw [← hdigits line, htexts, hdigits]
  obtain rfl : line = line' := calc
    line = Nat.ofDigitChars 10 (Nat.toDigits 10 line) 0 := Nat.ofDigitChars_ten_toDigits.symm
    _ = Nat.ofDigitChars 10 (Nat.toDigits 10 line') 0 := by rw [hsame]
    _ = line' := Nat.ofDigitChars_ten_toDigits
  exact ⟨rfl, String.toList_inj.mp (by simpa using htexts)⟩

/-- Whether lines can be built one after another, and what they come to. -/
def LinesBuild (safe : Bool) (lines : List (List Char)) (a : Assembly) : Prop :=
  Assembly.build Standard.commands { instructions := (Standard.initial safe).toArray } 0 lines = (a, none)

/-- The line of this number, counted from 1, is the first that cannot be built given the lines before it. -/
def FirstUnbuilt (safe : Bool) (lines : List (List Char)) (number : Nat) (fault : CompileFault) : Prop :=
  ∃ before raw after a, lines = before ++ raw :: after ∧ number = before.length + 1 ∧ LinesBuild safe before a ∧
    plainLine raw ≠ [] ∧ a.built Standard.commands (plainLine raw) = .error fault

/-- The label that a line goes to, if it is none of some names. -/
def stray? (names : List String) (line : List Char) : Option LabelName :=
  (goal? line).filter fun label => ∀ name ∈ names, label ≠ .named name

/-- The line of this number, counted from 1, has the first jump or call to a label that no line defines. -/
def FirstStray (lines : List (List Char)) (number : Nat) (label : LabelName) : Prop :=
  let names := definedNames (writtenLines lines)
  ∃ before raw after, lines = before ++ raw :: after ∧ number = before.length + 1 ∧
    stray? names (plainLine raw) = some label ∧ ∀ earlier ∈ before, stray? names (plainLine earlier) = none

namespace Assembly

variable {commands : List Command} {a a' : Assembly} {number line : Nat} {lines : List (List Char)}
  {fault : CompileFault}

/-- Building stops at the first line that cannot be built. -/
theorem build_eq_some (h : build commands a number lines = (a', some (line, fault))) :
    ∃ before raw after, lines = before ++ raw :: after ∧ line = number + before.length ∧
      build commands a number before = (a', none) ∧ plainLine raw ≠ [] ∧
      a'.built commands (plainLine raw) = .error fault := by
  induction lines generalizing a number with
  | nil => cases (Prod.mk.inj h).2
  | cons raw rest ih =>
    by_cases hp : plainLine raw = []
    · -- A blank line is passed over, so the fault lies behind it.
      have hskip (lines : List (List Char)) :
          build commands a number (raw :: lines) = build commands a (number + 1) lines := by
        rw [build, hp]
      rw [hskip] at h
      obtain ⟨before, culprit, after, rfl, rfl, hb, hne, he⟩ := ih h
      refine ⟨raw :: before, culprit, after, rfl, ?_, (hskip before).trans hb, hne, he⟩
      rw [List.length_cons]
      omega
    · rw [build_cons hp] at h
      cases hb : a.built commands (plainLine raw) with
      | error found =>
        simp only [hb, Prod.mk.injEq, Option.some.injEq] at h
        obtain ⟨rfl, rfl, rfl⟩ := h
        exact ⟨[], raw, rest, rfl, rfl, rfl, hp, hb⟩
      | ok item =>
        simp only [hb] at h
        obtain ⟨before, culprit, after, rfl, rfl, hbefore, hne, he⟩ := ih h
        refine ⟨raw :: before, culprit, after, rfl, ?_, ?_, hne, he⟩
        · rw [List.length_cons]
          omega
        · rw [build_cons hp, hb]
          exact hbefore

end Assembly

/-- Linking stops at the first jump or call whose label has no place. -/
theorem linkFrom_undefined_eq (labels : Labels) (code : List Instruction) :
    (linkFrom labels code).2 =
      (code.filterMap fun inst => inst.label?.filter fun label => (labels.find? label).isNone).head? := by
  induction code with
  | nil => rfl
  | cons inst rest ih =>
    rw [linkFrom, List.filterMap_cons]
    cases hl : inst.label? with
    | none => exact ih
    | some label => cases hf : labels.find? label <;> simp [Option.filter, hf, ih]

section

variable {lines : List (List Char)} {items : List Built} (h : lines.map alone = items.map .ok)
include h

/-- The jumps and calls without a place to go to are those of the lines whose label no line defines. -/
theorem stray_alone (start : List Instruction) :
    ((codeOf items).filterMap fun inst =>
      inst.label?.filter fun label => ((labelsOf start items).find? label).isNone) =
        lines.filterMap (stray? (definedNames lines)) := by
  rw [codeOf_alone h, List.filterMap_filterMap]
  apply List.filterMap_congr
  intro line hl
  have hnone (label : LabelName) : ((labelsOf start items).find? label).isNone =
      decide (∀ name ∈ definedNames lines, label ≠ .named name) := by
    rw [Bool.eq_iff_iff, decide_eq_true_iff, ← Option.not_isSome, Bool.not_eq_true', Bool.eq_false_iff, ne_eq,
      find?_alone h start label, not_exists]
    exact forall_congr' fun name => not_and
  rw [stray?, goal?_alone h hl]
  cases instruction? line with
  | none => rfl
  | some inst => simp only [Option.bind_some, hnone]

end

/-- Blank lines go to no label, so a stray one can be looked for with them or without. -/
theorem filterMap_stray? (names : List String) (lines : List (List Char)) :
    (writtenLines lines).filterMap (stray? names) = lines.filterMap fun raw => stray? names (plainLine raw) := by
  rw [writtenLines, List.filterMap_filter, List.filterMap_map]
  apply List.filterMap_congr
  intro raw _
  have hblank : stray? names [] = none := by
    rw [stray?, show goal? [] = none by decide]
    rfl
  by_cases hp : plainLine raw = []
  · simp [hp, hblank]
  · simp [hp]

section

variable {safe : Bool} {source : String} {a : Assembly}

/-- A line that cannot be built is all that is reported. -/
theorem criticals_unbuilt {number : Nat} {fault : CompileFault}
    (h : Assembly.build Standard.commands { instructions := (Standard.initial safe).toArray } 0
      (Text.lines source.toList) = (a, some (number, fault))) :
    (compile safe source).2.criticals = [located (number + 1) fault.message] := by
  simp only [compile, Compiler.compile, Compiler.compileLines, Compiler.standard, h]
  rfl

/-- Where all lines can be built, only linking can fail. -/
theorem criticals_built (h : LinesBuild safe (Text.lines source.toList) a) (hf : (compile safe source).1 = .failed) :
    ∃ label, (linkFrom a.labels a.instructions.toList).2 = some label ∧
      (compile safe source).2.criticals = [located 0 (CompileFault.undefinedLabel label).message] := by
  rw [LinesBuild] at h
  rcases hl : linkFrom a.labels a.instructions.toList with ⟨linked, _ | label⟩
  · simp [compile, Compiler.compile, Compiler.compileLines, Compiler.standard, h, Compiler.say, Compiler.runPass,
      linkPass, Compiler.withInstructions, hl] at hf
  · refine ⟨label, rfl, ?_⟩
    simp only [compile, Compiler.compile, Compiler.compileLines, Compiler.standard, h, Compiler.say,
      Compiler.runPass, linkPass, hl]
    rfl

/-- What linking misses is the first stray label of the lines. -/
theorem firstStray_of_link {lines : List (List Char)} {label : LabelName} (h : LinesBuild safe lines a)
    (hl : (linkFrom a.labels a.instructions.toList).2 = some label) : ∃ number, FirstStray lines number label := by
  obtain ⟨items, hi, _, rfl⟩ := (Assembly.build_eq_none (by simp)).mp h
  rw [Assembly.addAll_eq, linkFrom_undefined_eq] at hl
  have hinitial : ((Standard.initial safe).filterMap fun inst =>
      inst.label?.filter fun label => ((labelsOf (Standard.initial safe) items).find? label).isNone) = [] := by
    rw [List.filterMap_eq_nil_iff]
    intro inst hinst
    rw [initial_label safe hinst]
    rfl
  simp only [Array.toList_append, List.filterMap_append, List.nil_append, List.size_toArray] at hl
  rw [hinitial, List.nil_append, stray_alone hi, filterMap_stray?, List.head?_filterMap,
    List.findSome?_eq_some_iff] at hl
  obtain ⟨before, raw, after, hlines, hraw, hbefore⟩ := hl
  exact ⟨_, before, raw, after, hlines, rfl, hraw, hbefore⟩

end

/-- A source text that does not compile leaves one report. If some line cannot be built given those before it, the
report has the number of the first such line and says what is wrong with it. If all lines can be built, some jump or
call goes to a label that no line defines. The report has the first such label, but it has zero for the line. -/
theorem failure_leaves_one_report {safe : Bool} {source : String} (h : (compile safe source).1 = .failed) :
    let lines := Text.lines source.toList
    let criticals := (compile safe source).2.criticals
    (∃ number fault, FirstUnbuilt safe lines number fault ∧ 1 ≤ number ∧ number ≤ lines.length ∧
      criticals = [located number fault.message]) ∨
    ∃ a number label, LinesBuild safe lines a ∧ FirstStray lines number label ∧ 1 ≤ number ∧ number ≤ lines.length ∧
      criticals = [located 0 ("Undefined label \"" ++ label.plain ++ "\"")] := by
  intro lines criticals
  have hbound {before after : List (List Char)} {raw : List Char} (hl : lines = before ++ raw :: after) :
      before.length + 1 ≤ lines.length := by
    rw [hl, List.length_append, List.length_cons]
    omega
  rcases hb : Assembly.build Standard.commands { instructions := (Standard.initial safe).toArray } 0 lines with
    ⟨a, _ | ⟨number, fault⟩⟩
  · obtain ⟨label, hl, hc⟩ := criticals_built hb h
    obtain ⟨number, before, raw, after, hlines, rfl, hstray⟩ := firstStray_of_link hb hl
    exact .inr ⟨a, _, label, hb, ⟨before, raw, after, hlines, rfl, hstray⟩, Nat.le_add_left 1 _, hbound hlines, hc⟩
  · obtain ⟨before, raw, after, hlines, rfl, hbefore, hne, hfault⟩ := Assembly.build_eq_some hb
    refine .inl ⟨_, fault, ⟨before, raw, after, a, hlines, rfl, hbefore, hne, hfault⟩, Nat.le_add_left 1 _,
      hbound hlines, ?_⟩
    have hc := criticals_unbuilt hb
    rw [Nat.zero_add] at hc
    exact hc

/-- The fifth line defines a label again. Blank lines, comments and labels count as lines. -/
theorem second_label_is_reported :
    let source := "wait 1\n\nlabel a ; here\nclick\nlabel a\njump b"
    let lines := Text.lines source.toList
    let criticals := (compile false source).2.criticals
    (compile false source).1 = .failed ∧ criticals = ["(line 5) Label \"a\" already defined"] ∧
    ∃ fault, FirstUnbuilt false lines 5 fault ∧ criticals = [located 5 fault.message] := by
  intro source lines criticals
  have hf : (compile false source).1 = .failed := by decide +kernel
  have hc : criticals = [located 5 "Label \"a\" already defined"] := by decide +kernel
  refine ⟨hf, hc, ?_⟩
  rcases failure_leaves_one_report hf with ⟨number, fault, hfirst, _, _, hreport⟩ | ⟨_, _, _, _, _, _, _, hreport⟩
  · obtain ⟨rfl, _⟩ := located_inj.mp (List.head_eq_of_cons_eq (hc.symm.trans hreport))
    exact ⟨fault, hfirst, hreport⟩
  · have hline := (located_inj.mp (List.head_eq_of_cons_eq (hc.symm.trans hreport))).1
    exact absurd hline (by decide)

/-- A label that is not defined is reported for no line of the text. -/
theorem undefined_label_has_no_line :
    let source := "jump x"
    let lines := Text.lines source.toList
    let criticals := (compile false source).2.criticals
    (compile false source).1 = .failed ∧ FirstStray lines 1 (.named "x") ∧
    criticals = ["(line 0) Undefined label \"x\""] ∧
    ¬ ∃ line message, 1 ≤ line ∧ line ≤ lines.length ∧ criticals = [located line message] := by
  intro source lines criticals
  have hc : criticals = [located 0 "Undefined label \"x\""] := by decide +kernel
  refine ⟨by decide +kernel, ⟨[], source.toList, [], by decide +kernel, rfl, by decide +kernel, by simp⟩, hc, ?_⟩
  rintro ⟨line, message, hpos, _, hreport⟩
  obtain ⟨rfl, _⟩ := located_inj.mp (List.head_eq_of_cons_eq (hc.symm.trans hreport))
  exact absurd hpos (by decide)

end PointerScript
