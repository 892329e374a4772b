import PointerScript.Proofs.Assembly

/-! The lines of a source text, one by one. What a line builds depends on the lines before it only
where it defines a label that they define too; so a text can be built exactly if each line can be
built alone and no label is defined twice. The names of labels, calls and jumps can be read off the
lines. -/

namespace PointerScript

/-- The plain forms of lines, without the blank ones. -/
def writtenLines (lines : List (List Char)) : List (List Char) :=
  (lines.map plainLine).filter fun line => !line.isEmpty

/-- The plain lines of a source text that are not blank. -/
def sourceLines (source : String) : List (List Char) :=
  writtenLines (Text.lines source.toList)

namespace SourceLine

/-- What a line builds when nothing was built before it. -/
def alone (line : List Char) : Except CompileFault Built :=
  ({} : Assembly).built Standard.commands line

def instruction? (line : List Char) : Option Instruction :=
  match alone line with
  | .ok item => item.instruction?
  | .error _ => none

def word (line : List Char) : String :=
  (wordAndArgs line).1

/-- What follows the first word of a line and the space behind it. -/
def rest (line : List Char) : String :=
  (wordAndArgs line).2

/-- The name that a label line defines: all that follows its word. -/
def defined? (line : List Char) : Option String :=
  if word line = "label" then some (rest line) else none

/-- The label that a line goes to: for a call all that follows its word, for a jump the first word
that follows. A jump without arguments names none. -/
def goal? (line : List Char) : Option LabelName :=
  if word line = "call" then some (.named (rest line))
  else if word line = "jump" then
    some (if rest line = "" then .unnamed else .named (word (rest line).toList))
  else none

/-- The count of a jump line: what follows the name, or that of a jump without a count. -/
def count (line : List Char) : Operand :=
  match Text.breakAt? [' '] (rest line).toList with
  | some (_, text) => Operand.read (String.ofList text)
  | none => Operand.absent

end SourceLine

def Instruction.assigned? : Instruction → Option String
  | setVar name _ | varMath name _ _ _ => some name
  | _ => none

open SourceLine

namespace Standard

private theorem mapError_ok {α ε ε' : Type} (f : ε → ε') (a : α) : (Except.ok a).mapError f = .ok a := rfl

theorem bind_word {c : Command} {name : String} (hs : c.separator = " ")
    (hp : c.params = [⟨name, .word, none⟩]) {args : String} {values : List Value}
    (h : c.bind args = .ok values) : values = [.text args] := by
  by_cases he : args.isEmpty = true
  · simp [Command.bind, Command.pieces, he, hp, Command.readPieces, Command.readDefaults, Command.fill, bind,
      Except.bind, throw, throwThe, MonadExceptOf.throw] at h
  · simp [Command.bind, Command.pieces, he, hs, hp, Text.splitAtMost, Command.readPieces, Kind.read,
      Command.readDefaults, Command.fill, bind, Except.bind, pure, Except.pure, mapError_ok] at h
    exact h.symm

private theorem bind_jump {args : String} {values : List Value} (h : jump.bind args = .ok values) :
    (args = "" ∧ values = [.operand Operand.absent, .operand Operand.absent]) ∨
    (args ≠ "" ∧ values = [.text (wordAndArgs args.toList).1,
      .operand (match Text.breakAt? [' '] args.toList with
        | some (_, text) => Operand.read (String.ofList text)
        | none => Operand.absent)]) := by
  have hparams : jump.params = [⟨"name", .word, none⟩, ⟨"n", .operand, some (.operand Operand.absent)⟩] := rfl
  have hsep : jump.separator = " " := rfl
  generalize jump = c at h hparams hsep
  generalize Operand.absent = absent at hparams ⊢
  by_cases he : args = ""
  · left
    simp [he, Command.bind, Command.pieces, hparams, Command.readPieces, Command.readDefaults, Command.readDefault,
      Command.fill, bind, Except.bind, pure, Except.pure] at h
    exact ⟨he, h.symm⟩
  · right
    have hne : args.isEmpty = false := by simpa using he
    refine ⟨he, ?_⟩
    rw [wordAndArgs]
    cases hb : Text.breakAt? [' '] args.toList with
    | none =>
      simp [Command.bind, Command.pieces, hne, hsep, hparams, Text.splitAtMost, hb, Command.readPieces, Kind.read,
        Command.readDefaults, Command.readDefault, Command.fill, bind, Except.bind, pure, Except.pure,
        mapError_ok] at h
      simp [h]
    | some parts =>
      simp [Command.bind, Command.pieces, hne, hsep, hparams, Text.splitAtMost, hb, Command.readPieces, Kind.read,
        Command.readDefaults, Command.fill, bind, Except.bind, pure, Except.pure, mapError_ok] at h
      simp [h]

/-- A first parameter that is a word takes the first word of the arguments. -/
private theorem bind_first {c : Command} {p q : Param} {ps : List Param} (hs : c.separator = " ")
    (hp : c.params = p :: q :: ps) (hk : p.kind = .word) {args : String} (hne : args ≠ "") {values : List Value}
    (h : c.bind args = .ok values) : ∃ tail, values = .text (wordAndArgs args.toList).1 :: tail := by
  have hpieces : ∃ more, c.pieces args = .ok ((wordAndArgs args.toList).1 :: more) := by
    have he : args.isEmpty = false := by simpa using hne
    rw [wordAndArgs]
    cases hb : Text.breakAt? [' '] args.toList with
    | none => exact ⟨[], by simp [Command.pieces, he, hs, hp, Text.splitAtMost, hb]⟩
    | some parts => exact ⟨_, by simp [Command.pieces, he, hs, hp, Text.splitAtMost, hb]; rfl⟩
  obtain ⟨more, hm⟩ := hpieces
  simp only [Command.bind, hm, hp, bind, Except.bind, Command.readPieces, hk, Kind.read, mapError_ok] at h
  cases hr : Command.readPieces more (q :: ps) with
  | error fault => simp [hr] at h
  | ok given =>
    simp only [hr, pure, Except.pure] at h
    split at h
    · exact absurd h (by simp)
    · rw [List.cons_append, Command.fill] at h
      split at h
      · rename_i he
        obtain rfl := Except.ok.inj h
        exact ⟨_, (Prod.ext_iff.mp he).1.symm⟩
      · exact absurd h (by simp [throw, throwThe, MonadExceptOf.throw])

/-- The commands that neither define a label nor go to one. -/
private theorem build_unlabelled {c : Command} (hc : c ∈ commands) (hl : c.word ≠ "label") (hcall : c.word ≠ "call")
    (hjump : c.word ≠ "jump") {size : Nat} {labels : Labels} {values : List Value} {item : Built}
    (h : c.build size labels values = .ok item) :
    ∃ inst, item = .instruction inst ∧ inst.label? = none ∧ (inst = .pause → c.word = "pause") ∧
      (inst.assigned? ≠ none → c.word = "var") := by
  have hassign (target : String) (left right : Operand) (sign : MathSign) :
      (assignment target left right sign).label? = none ∧ assignment target left right sign ≠ .pause := by
    cases sign <;> exact ⟨rfl, Instruction.noConfusion⟩
  simp only [commands, List.mem_cons, List.not_mem_nil, or_false] at hc
  rcases hc with rfl | rfl | rfl | rfl | rfl | rfl | rfl | rfl | rfl | rfl | rfl | rfl | rfl | rfl | rfl | rfl |
    rfl | rfl
  case inr.inr.inr.inr.inr.inr.inl => exact absurd rfl hjump
  case inr.inr.inr.inr.inr.inr.inr.inr.inr.inr.inr.inr.inr.inl => exact absurd rfl hl
  case inr.inr.inr.inr.inr.inr.inr.inr.inr.inr.inr.inr.inr.inr.inl => exact absurd rfl hcall
  all_goals
    simp only [finish, move, moveRel, click, wait, doubleClick, print, center, pause, goBack, setOffset,
      clearOffset, ret, printVar, var, plain, buildMovement, buildAssignment, misfit] at h
    repeat' split at h
  all_goals
    simp only [Except.ok.injEq, reduceCtorEq] at h
  all_goals
    subst h
    first
    | exact ⟨_, rfl, rfl, fun _ => rfl, fun h => absurd rfl h⟩
    | exact ⟨_, rfl, rfl, Instruction.noConfusion, fun h => absurd rfl h⟩
    | exact ⟨_, rfl, (hassign _ _ _ _).1, fun h => absurd h (hassign _ _ _ _).2, fun _ => rfl⟩

theorem build_alike {c : Command} (hc : c ∈ commands) (hl : c.word ≠ "label") (size size' : Nat)
    (labels labels' : Labels) : c.build size labels = c.build size' labels' := by
  simp only [commands, List.mem_cons, List.not_mem_nil, or_false] at hc
  rcases hc with rfl | rfl | rfl | rfl | rfl | rfl | rfl | rfl | rfl | rfl | rfl | rfl | rfl | rfl | rfl | rfl |
    rfl | rfl
  all_goals first | rfl | exact absurd rfl hl

theorem build_label {size : Nat} {labels : Labels} {name : String} {item : Built} :
    label.build size labels [.text name] = .ok item ↔ name ∉ labels.map Prod.fst ∧ item = .label name := by
  have hany : labels.any (fun p => p.1 = name) = true ↔ name ∈ labels.map Prod.fst := by simp
  change (if labels.any (fun p => p.1 = name) = true then _ else _) = _ ↔ _
  split
  · rename_i hold
    simp [hany.mp hold]
  · rename_i hnew
    simp only [mt hany.mpr hnew, Except.ok.injEq, eq_comm, not_false_eq_true, true_and]

end Standard

namespace SourceLine

/-- A command that is found goes by the word it was looked for. -/
theorem word_of_find {line : List Char} {c : Command}
    (h : findCommand? Standard.commands (word line) = some c) : c ∈ Standard.commands ∧ c.word = word line := by
  have hw := List.find?_some h
  exact ⟨List.mem_of_find?_eq_some h, of_decide_eq_true hw⟩

theorem alone_label {line : List Char} {item : Built} (hw : word line = "label") (h : alone line = .ok item) :
    item = .label (rest line) := by
  obtain ⟨c, values, hf, hv, hb⟩ := Assembly.built_eq_ok.mp h
  change findCommand? Standard.commands (word line) = some c at hf
  rw [hw] at hf
  obtain rfl : Standard.label = c := Option.some.inj hf
  obtain rfl := Standard.bind_word rfl rfl hv
  exact (Except.ok.inj hb).symm

theorem alone_call {line : List Char} {item : Built} (hw : word line = "call") (h : alone line = .ok item) :
    item = .instruction (.call Operand.absent Instruction.unlinked (.named (rest line))) := by
  obtain ⟨c, values, hf, hv, hb⟩ := Assembly.built_eq_ok.mp h
  change findCommand? Standard.commands (word line) = some c at hf
  rw [hw] at hf
  obtain rfl : Standard.call = c := Option.some.inj hf
  obtain rfl := Standard.bind_word rfl rfl hv
  exact (Except.ok.inj hb).symm

theorem alone_jump {line : List Char} {item : Built} (hw : word line = "jump") (h : alone line = .ok item) :
    ∃ label, goal? line = some label ∧ item = .instruction (.jump (count line) Instruction.unlinked label) := by
  obtain ⟨c, values, hf, hv, hb⟩ := Assembly.built_eq_ok.mp h
  change findCommand? Standard.commands (word line) = some c at hf
  rw [hw] at hf
  obtain rfl : Standard.jump = c := Option.some.inj hf
  have hgoal : goal? line = some (if rest line = "" then .unnamed else .named (word (rest line).toList)) := by
    rw [goal?, if_neg (by rw [hw]; decide), if_pos hw]
  refine ⟨_, hgoal, ?_⟩
  rcases Standard.bind_jump hv with ⟨he, rfl⟩ | ⟨he, rfl⟩
  · change rest line = "" at he
    rw [if_pos he, count, he]
    exact (Except.ok.inj hb).symm
  · change rest line ≠ "" at he
    rw [if_neg he]
    exact (Except.ok.inj hb).symm

theorem alone_var {line : List Char} {item : Built} (hw : word line = "var") (h : alone line = .ok item) :
    ∃ inst, item = .instruction inst ∧ inst.assigned? = some (word (rest line).toList) ∧
      isVariableName (word (rest line).toList) = true := by
  obtain ⟨c, values, hf, hv, hb⟩ := Assembly.built_eq_ok.mp h
  change findCommand? Standard.commands (word line) = some c at hf
  rw [hw] at hf
  obtain rfl : Standard.var = c := Option.some.inj hf
  change Standard.buildAssignment values = .ok item at hb
  have hargs : rest line ≠ "" := by
    intro he
    change Standard.var.bind (rest line) = .ok values at hv
    rw [he] at hv
    cases hv
  obtain ⟨tail, rfl⟩ := Standard.bind_first rfl rfl rfl hargs hv
  change Standard.buildAssignment (.text (word (rest line).toList) :: tail) = .ok item at hb
  unfold Standard.buildAssignment at hb
  dsimp only at hb
  split at hb
  · rename_i hname
    split at hb
    · rename_i left sign right
      obtain rfl := Except.ok.inj hb
      exact ⟨_, rfl, by cases sign <;> rfl, hname⟩
    · exact absurd hb (by simp)
  · exact absurd hb (by simp)

/-- All other lines build an instruction that goes to no label; pauses and assignments are built only where
their words stand. -/
theorem alone_other {line : List Char} {item : Built} (hl : word line ≠ "label") (hc : word line ≠ "call")
    (hj : word line ≠ "jump") (h : alone line = .ok item) :
    ∃ inst, item = .instruction inst ∧ inst.label? = none ∧ (inst = .pause → word line = "pause") ∧
      (inst.assigned? ≠ none → word line = "var") := by
  obtain ⟨c, values, hf, _, hb⟩ := Assembly.built_eq_ok.mp h
  obtain ⟨hm, hw⟩ := word_of_find hf
  rw [← hw] at hl hc hj ⊢
  exact Standard.build_unlabelled hm hl hc hj hb

/-- The names of what a line builds can be read off the line. -/
theorem alone_names {line : List Char} {item : Built} (h : alone line = .ok item) :
    item.label? = defined? line ∧ item.instruction?.bind Instruction.label? = goal? line := by
  by_cases hl : word line = "label"
  · obtain rfl := alone_label hl h
    simp [defined?, goal?, hl, Built.label?, Built.instruction?]
  · by_cases hc : word line = "call"
    · obtain rfl := alone_call hc h
      simp [defined?, goal?, hc, Built.label?, Built.instruction?, Instruction.label?]
    · by_cases hj : word line = "jump"
      · obtain ⟨label, hgoal, rfl⟩ := alone_jump hj h
        simp [defined?, hgoal, hl, Built.label?, Built.instruction?, Instruction.label?]
      · obtain ⟨inst, rfl, hnone, _⟩ := alone_other hl hc hj h
        simp [defined?, goal?, hl, hc, hj, Built.label?, Built.instruction?, hnone]

/-- A line builds behind others what it builds alone, unless it is a label that they define. -/
theorem built_iff_alone {a : Assembly} {line : List Char} {item : Built} :
    a.built Standard.commands line = .ok item ↔
      alone line = .ok item ∧ ∀ name, item = .label name → name ∉ a.labels.map Prod.fst := by
  by_cases hw : word line = "label"
  · have hf : findCommand? Standard.commands (wordAndArgs line).1 = some Standard.label := by
      change findCommand? Standard.commands (word line) = _
      rw [hw]
      rfl
    rw [alone, Assembly.built_eq_ok, Assembly.built_eq_ok]
    simp only [hf, Option.some.injEq, exists_and_left, exists_eq_left']
    constructor
    · rintro ⟨values, hv, hb⟩
      obtain rfl := Standard.bind_word rfl rfl hv
      obtain ⟨hnew, rfl⟩ := Standard.build_label.mp hb
      refine ⟨⟨_, hv, rfl⟩, ?_⟩
      intro name hname
      rwa [← Built.label.inj hname]
    · rintro ⟨⟨values, hv, hb⟩, hnew⟩
      obtain rfl := Standard.bind_word rfl rfl hv
      obtain ⟨_, rfl⟩ := Standard.build_label.mp hb
      exact ⟨_, hv, Standard.build_label.mpr ⟨hnew _ rfl, rfl⟩⟩
  · -- No other command looks at the labels.
    have hsame : a.built Standard.commands line = alone line := by
      rw [alone, Assembly.built, Assembly.built]
      cases hf : findCommand? Standard.commands (wordAndArgs line).1 with
      | none => simp only [hf]
      | some c =>
        obtain ⟨hm, hc⟩ := word_of_find hf
        rw [← hc] at hw
        simp only [hf, Command.run, Standard.build_alike hm hw a.instructions.size 0 a.labels []]
        rfl
    rw [hsame]
    refine ⟨fun h => ⟨h, fun name hi => ?_⟩, And.left⟩
    have hnone := (alone_names h).1
    rw [hi, defined?, if_neg hw] at hnone
    exact absurd hnone (by simp [Built.label?])

end SourceLine

theorem writtenLines_blank {raw : List Char} (h : plainLine raw = []) (rest : List (List Char)) :
    writtenLines (raw :: rest) = writtenLines rest := by
  simp [writtenLines, h]

theorem writtenLines_cons {raw : List Char} (h : plainLine raw ≠ []) (rest : List (List Char)) :
    writtenLines (raw :: rest) = plainLine raw :: writtenLines rest := by
  simp [writtenLines, h]

theorem writtenLines_append (first second : List (List Char)) :
    writtenLines (first ++ second) = writtenLines first ++ writtenLines second := by
  simp [writtenLines]

theorem namesOf_cons (item : Built) (items : List Built) :
    namesOf (item :: items) = item.label?.toList ++ namesOf items := by
  cases item <;> rfl

namespace Assembly

theorem build_cons {raw : List Char} (h : plainLine raw ≠ []) (commands : List Command) (a : Assembly) (number : Nat)
    (rest : List (List Char)) : build commands a number (raw :: rest) =
      match a.built commands (plainLine raw) with
      | .ok item => build commands (a.add item) (number + 1) rest
      | .error fault => (a, some (number, fault)) := by
  rw [build]
  split
  · rename_i hp
    exact absurd hp h
  · rfl

/-- Lines build one after another exactly if each builds alone and no label is defined twice. -/
theorem build_eq_none {a a' : Assembly} {number : Nat} {lines : List (List Char)}
    (hn : (a.labels.map Prod.fst).Nodup) :
    build Standard.commands a number lines = (a', none) ↔
      ∃ items, (writtenLines lines).map alone = items.map .ok ∧
        (a.labels.map Prod.fst ++ namesOf items).Nodup ∧ a' = a.addAll items := by
  induction lines generalizing a number with
  | nil =>
    constructor
    · intro h
      exact ⟨[], rfl, by simpa using hn, (Prod.ext_iff.mp h).1.symm⟩
    · rintro ⟨items, hi, _, rfl⟩
      obtain rfl : items = [] := by simpa [writtenLines, eq_comm] using hi
      rfl
  | cons raw rest ih =>
    by_cases hp : plainLine raw = []
    · rw [build, writtenLines_blank hp, hp]
      exact ih hn
    · rw [build_cons hp, writtenLines_cons hp, List.map_cons]
      constructor
      · intro h
        cases hb : a.built Standard.commands (plainLine raw) with
        | error fault => simp [hb] at h
        | ok item =>
          obtain ⟨halone, hnew⟩ := built_iff_alone.mp hb
          -- The names stay distinct, since the line defines none that was there.
          have hadd : ((a.add item).labels.map Prod.fst).Nodup := by
            rw [add_names]
            cases item with
            | label name =>
              refine List.nodup_append.mpr ⟨hn, by simp [Built.label?], ?_⟩
              rintro old hold other hother rfl
              obtain rfl : old = name := by simpa [Built.label?] using hother
              exact hnew old rfl hold
            | instruction => simpa [Built.label?] using hn
            | nothing => simpa [Built.label?] using hn
          simp only [hb] at h
          obtain ⟨items, hi, hnodup, rfl⟩ := (ih hadd).mp h
          refine ⟨item :: items, by rw [hi, halone, List.map_cons], ?_, rfl⟩
          rwa [namesOf_cons, ← List.append_assoc, ← add_names]
      · rintro ⟨items, hi, hnodup, rfl⟩
        obtain ⟨item, items, rfl⟩ : ∃ item rest, items = item :: rest := by
          cases items with
          | nil => simp at hi
          | cons item items => exact ⟨item, items, rfl⟩
        rw [List.map_cons, List.cons.injEq] at hi
        rw [namesOf_cons, ← List.append_assoc] at hnodup
        have hb : a.built Standard.commands (plainLine raw) = .ok item := by
          refine built_iff_alone.mpr ⟨hi.1, ?_⟩
          rintro name rfl hold
          exact (List.nodup_append.mp (List.nodup_append.mp hnodup).1).2.2 name hold name
            (by simp [Built.label?]) rfl
        rw [← add_names] at hnodup
        simp only [hb]
        exact (ih (List.nodup_append.mp hnodup).1).mpr ⟨items, hi.2, hnodup, rfl⟩

end Assembly

/-- What lines build comes from one of them. -/
theorem line_of_codeOf {lines : List (List Char)} {items : List Built} {inst : Instruction}
    (hi : lines.map alone = items.map .ok) (h : inst ∈ codeOf items) :
    ∃ line ∈ lines, alone line = .ok (.instruction inst) := by
  obtain ⟨item, hm, he⟩ := List.mem_filterMap.mp h
  have hok : Except.ok item ∈ lines.map alone := by
    rw [hi]
    exact List.mem_map_of_mem hm
  obtain ⟨line, hline, hl⟩ := List.mem_map.mp hok
  cases item with
  | instruction other => exact ⟨line, hline, Option.some.inj he ▸ hl⟩
  | label | nothing => simp [Built.instruction?] at he

/-- A source text writes the items that its lines build alone, if no label is defined twice. -/
theorem writes_alone {source : String} {items : List Built} (hi : (sourceLines source).map alone = items.map .ok)
    (hn : (namesOf items).Nodup) : Writes source items := by
  constructor
  · intro inst hinst
    obtain ⟨line, _, hl⟩ := line_of_codeOf hi hinst
    exact Assembly.built_written hl
  · intro a number ha
    exact (Assembly.build_eq_none (by simp [ha])).mpr ⟨items, hi, by simpa [ha] using hn, rfl⟩

/-- A source text writes one code and one table of labels. -/
theorem Writes.unique {source : String} {items others : List Built} (h : Writes source items)
    (ho : Writes source others) (start : List Instruction) :
    codeOf items = codeOf others ∧ labelsOf start items = labelsOf start others := by
  have he := (h.2 { instructions := start.toArray } 0 rfl).symm.trans (ho.2 { instructions := start.toArray } 0 rfl)
  rw [Prod.mk.injEq, Assembly.addAll_eq, Assembly.addAll_eq, Assembly.mk.injEq] at he
  simpa using he.1

/-- A source text compiles exactly if each line builds alone, no label is defined twice, and the label of
every jump and call has a place. -/
theorem compile_eq_alone {safe : Bool} {source : String} {program : Array Instruction} :
    (compile safe source).1 = .program program ↔
      ∃ items, (sourceLines source).map alone = items.map .ok ∧ (namesOf items).Nodup ∧
        (∀ inst ∈ codeOf items, (labelsOf (Standard.initial safe) items).Defines inst) ∧
        program.toList = Standard.initial safe ++
          (codeOf items).map (labelsOf (Standard.initial safe) items).resolve := by
  rw [compile_eq_program]
  constructor
  · rintro ⟨others, hw, hd, hp⟩
    obtain ⟨items, hi, hn, _⟩ := (Assembly.build_eq_none (by simp)).mp (hw.2 {} 0 rfl)
    have hn' : (namesOf items).Nodup := by simpa using hn
    obtain ⟨hcode, hlabels⟩ := hw.unique (writes_alone hi hn') (Standard.initial safe)
    rw [hcode, hlabels] at hd hp
    exact ⟨items, hi, hn', hd, hp⟩
  · rintro ⟨items, hi, hn, hd, hp⟩
    exact ⟨items, writes_alone hi hn, hd, hp⟩

/-- Every instruction of a compiled program is an initial one or comes from a line, with its target filled
in. -/
theorem mem_of_compile {safe : Bool} {source : String} {program : Array Instruction} {inst : Instruction}
    (h : (compile safe source).1 = .program program) (hi : inst ∈ program) :
    inst ∈ Standard.initial safe ∨ ∃ line ∈ sourceLines source, ∃ built, alone line = .ok (.instruction built) ∧
      (inst = built ∨ ∃ target, inst = built.withTarget target) := by
  obtain ⟨items, hitems, _, _, hp⟩ := compile_eq_alone.mp h
  rw [← Array.mem_toList_iff, hp, List.mem_append] at hi
  refine hi.imp_right fun hcode => ?_
  obtain ⟨built, hbuilt, rfl⟩ := List.mem_map.mp hcode
  obtain ⟨line, hline, hl⟩ := line_of_codeOf hitems hbuilt
  refine ⟨line, hline, built, hl, ?_⟩
  unfold Labels.resolve
  split
  · exact .inr ⟨_, rfl⟩
  · exact .inl rfl

end PointerScript
