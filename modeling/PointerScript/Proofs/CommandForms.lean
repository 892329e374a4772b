import PointerScript.Proofs.Structured.Lines
import PointerScript.Proofs.Variables

/-! The forms of lines. Movements, waits, jumps and assignments take values; the lines that build them are those of
the documented forms and a few slips, and whatever stands where a value belongs is read as an operand. -/

namespace PointerScript

open SourceLine

inductive Movement : String → (Operand → Argument → Number → Instruction) → Prop
  | move : Movement "move" .move
  | moveRel : Movement "moverel" .moveRel

/-- The documented forms of lines with values: the word of a line, what follows it, and what they build. -/
inductive Documented : String → String → Instruction → Prop
  | movement {word make x y} (h : Movement word make) (hx : ' ' ∉ x.toList) (hy : ' ' ∉ y.toList) :
      Documented word (Text.join " " [x, y])
        (make (Operand.read x) (.operand (Operand.read y)) (.float (.zero false)))
  | timed {word make x y t time} (h : Movement word make) (hx : ' ' ∉ x.toList) (hy : ' ' ∉ y.toList)
      (ht : Number.readBinary64? t.toList = some time) :
      Documented word (Text.join " " [x, y, t]) (make (Operand.read x) (.operand (Operand.read y)) (.float time))
  | wait {t} (h : t ≠ "") : Documented "wait" t (.wait (Operand.read t))
  | jump {name} (h : name ≠ "") (hn : ' ' ∉ name.toList) :
      Documented "jump" name (.jump Operand.absent Instruction.unlinked (.named name))
  | counted {name n} (hn : ' ' ∉ name.toList) :
      Documented "jump" (Text.join " " [name, n]) (.jump (Operand.read n) Instruction.unlinked (.named name))
  | assign {x v} (hx : ' ' ∉ x.toList) (hname : isVariableName x = true) (hv : ' ' ∉ v.toList) :
      Documented "var" (Text.join " " [x, "=", v]) (.setVar x (Operand.read v))
  | operate {x v s w sign} (hx : ' ' ∉ x.toList) (hname : isVariableName x = true) (hv : ' ' ∉ v.toList)
      (hs : MathSign.ofSpelling? s = some sign) (hsign : sign ≠ .none) :
      Documented "var" (Text.join " " [x, "=", v, s, w])
        (Standard.assignment x (Operand.read v) (Operand.read w) sign)

/-- The other lines with values that build: a movement with one coordinate, where a bare number stands for the
second one; a jump that names no label; and an assignment with a sign and no second operand, for which the operand
of a left-out number stands, or with the spelling of no sign. -/
inductive Slip : String → String → Instruction → Prop
  | half {word make x} (h : Movement word make) (hne : x ≠ "") (hx : ' ' ∉ x.toList) :
      Slip word x (make (Operand.read x) (.bare (.float (.zero false))) (.float (.zero false)))
  | nameless : Slip "jump" "" (.jump Operand.absent Instruction.unlinked .unnamed)
  | dangling {x v s sign} (hx : ' ' ∉ x.toList) (hname : isVariableName x = true) (hv : ' ' ∉ v.toList)
      (hs : MathSign.ofSpelling? s = some sign) :
      Slip "var" (Text.join " " [x, "=", v, s]) (Standard.assignment x (Operand.read v) Operand.absent sign)
  | unsigned {x v w} (hx : ' ' ∉ x.toList) (hname : isVariableName x = true) (hv : ' ' ∉ v.toList) :
      Slip "var" (Text.join " " [x, "=", v, "noop", w]) (.setVar x (Operand.read v))

theorem MathSign.unspaced {s : String} {sign : MathSign} (h : ofSpelling? s = some sign) : ' ' ∉ s.toList := by
  unfold ofSpelling? at h
  split at h <;> simp at h ⊢

namespace Text

/-- A text cut at its first spaces: all pieces but the last have none, and the last has none unless there were no
more cuts to make. -/
structure Cut (cuts : Nat) (words : List String) (last : String) : Prop where
  unspaced : ∀ w ∈ words, ' ' ∉ w.toList
  count : words.length ≤ cuts
  rest : words.length = cuts ∨ ' ' ∉ last.toList

theorem join_cons {words : List String} (h : words ≠ []) (w : String) :
    join " " (w :: words) = w ++ " " ++ join " " words := by
  obtain ⟨next, rest, rfl⟩ := List.exists_cons_of_ne_nil h
  apply String.toList_inj.mp
  simp [join]

theorem join_one (s : String) : join " " [s] = s := by
  simp [join]

theorem join_ne_empty {words : List String} (h : words ≠ []) (w : String) : join " " (w :: words) ≠ "" := by
  intro he
  have hchars := congrArg String.toList he
  simp [join_cons h] at hchars

theorem exists_cut (cuts : Nat) (s : String) : ∃ words last, Cut cuts words last ∧ s = join " " (words ++ [last]) := by
  induction cuts generalizing s with
  | zero => exact ⟨[], s, ⟨by simp, Nat.le_refl 0, .inl rfl⟩, (join_one s).symm⟩
  | succ cuts ih =>
    cases h : breakAt? [' '] s.toList with
    | none => exact ⟨[], s, ⟨by simp, Nat.zero_le _, .inr (no_space_of_breakAt?_none h)⟩, (join_one s).symm⟩
    | some parts =>
      obtain ⟨hs, hfree⟩ := no_space_of_breakAt? h
      obtain ⟨words, last, hcut, hrest⟩ := ih (String.ofList parts.2)
      refine ⟨String.ofList parts.1 :: words, last, ⟨?_, ?_, ?_⟩, ?_⟩
      · rw [List.forall_mem_cons, String.toList_ofList]
        exact ⟨hfree, hcut.unspaced⟩
      · exact Nat.succ_le_succ hcut.count
      · exact hcut.rest.imp_left (congrArg (· + 1))
      · rw [List.cons_append, join_cons (by simp), ← hrest]
        apply String.toList_inj.mp
        simp [hs]

/-- Cutting gives the pieces back. -/
theorem Cut.split {cuts : Nat} {words : List String} {last : String} (h : Cut cuts words last) :
    splitAtMost [' '] cuts (join " " (words ++ [last])).toList = (words ++ [last]).map String.toList := by
  have hne {s : String} (hs : ' ' ∉ s.toList) : ∀ c ∈ s.toList, c ≠ ' ' := fun c hc he => hs (he ▸ hc)
  induction words generalizing cuts with
  | nil =>
    rw [List.nil_append, join_one]
    cases cuts with
    | zero => rfl
    | succ cuts =>
      have hfree : ' ' ∉ last.toList := h.rest.resolve_left (by simp)
      rw [splitAtMost, breakAt?_none (hne hfree)]
      rfl
  | cons w words ih =>
    obtain ⟨k, rfl⟩ : ∃ k, cuts = k + 1 := Nat.exists_eq_succ_of_ne_zero fun h0 => by simpa [h0] using h.count
    obtain ⟨hw, hwords⟩ := List.forall_mem_cons.mp h.unspaced
    have hrest : Cut k words last :=
      ⟨hwords, Nat.le_of_succ_le_succ h.count, h.rest.imp_left Nat.succ.inj⟩
    have hchars : (join " " (w :: words ++ [last])).toList =
        w.toList ++ ' ' :: (join " " (words ++ [last])).toList := by
      rw [List.cons_append, join_cons (by simp)]
      simp
    rw [hchars, splitAtMost, breakAt?_space (hne hw)]
    simp only [ih hrest, List.cons_append, List.map_cons]

end Text

namespace Command

def ofPieces (c : Command) (pieces : List String) : Except BuildFault Built := do
  let values ← (do
    let given ← readPieces pieces c.params
    let defaults ← readDefaults (c.params.drop pieces.length)
    match fill c.params (given ++ defaults) with
    | (values, []) => return values
    | (_, missing) => throw (.missing c.title missing))
  c.build 0 [] values

private theorem run_of_pieces {c : Command} {args : String} {pieces : List String} (h : c.pieces args = .ok pieces) :
    c.run 0 [] args = c.ofPieces pieces := by
  rw [run, Command.bind, h]
  rfl

/-- A command builds of its arguments what it builds of their pieces. -/
theorem run_cut {c : Command} (hs : c.separator = " ") {words : List String} {last : String}
    (h : Text.Cut (c.params.length - 1) words last) (hne : Text.join " " (words ++ [last]) ≠ "") :
    c.run 0 [] (Text.join " " (words ++ [last])) = c.ofPieces (words ++ [last]) := by
  apply run_of_pieces
  have he : (Text.join " " (words ++ [last])).isEmpty = false := by simpa using hne
  have hsep : " ".toList = [' '] := rfl
  simp only [pieces, he, hs, hsep, h.split]
  simp

theorem run_one {c : Command} (hs : c.separator = " ") {s : String} (hne : s ≠ "")
    (h : c.params.length - 1 = 0 ∨ ' ' ∉ s.toList) : c.run 0 [] s = c.ofPieces [s] := by
  have hcut : Text.Cut (c.params.length - 1) [] s := ⟨by simp, Nat.zero_le _, h.imp_left Eq.symm⟩
  have hrun := run_cut hs hcut
  rw [List.nil_append, Text.join_one] at hrun
  exact hrun hne

/-- Arguments are none, or pieces of which a command builds something. -/
theorem pieces_of_run {c : Command} (hs : c.separator = " ") {args : String} {item : Built}
    (h : c.run 0 [] args = .ok item) : (args = "" ∧ c.ofPieces [] = .ok item) ∨
      ∃ words last, Text.Cut (c.params.length - 1) words last ∧ args ≠ "" ∧
        args = Text.join " " (words ++ [last]) ∧ c.ofPieces (words ++ [last]) = .ok item := by
  by_cases he : args = ""
  · have hp : c.pieces args = .ok [] := by simp [pieces, he]
    exact .inl ⟨he, run_of_pieces hp ▸ h⟩
  · obtain ⟨words, last, hc, rfl⟩ := Text.exists_cut (c.params.length - 1) args
    exact .inr ⟨words, last, hc, he, rfl, run_cut hs hc he ▸ h⟩

end Command

namespace Standard

variable {c : Command} {item : Built}

section

variable {make : Operand → Argument → Number → Instruction} (hp : c.params = movementParams)
  (hb : c.build = fun _ _ values => buildMovement make values)
include hp hb

private theorem movement_none : c.ofPieces [] ≠ .ok item := by
  rw [Command.ofPieces, hp, hb]
  intro h
  cases h

private theorem movement_one (x : String) : c.ofPieces [x] =
    .ok (.instruction (make (Operand.read x) (.bare (.float (.zero false))) (.float (.zero false)))) := by
  rw [Command.ofPieces, hp, hb]
  rfl

private theorem movement_two (x y : String) : c.ofPieces [x, y] =
    .ok (.instruction (make (Operand.read x) (.operand (Operand.read y)) (.float (.zero false)))) := by
  rw [Command.ofPieces, hp, hb]
  rfl

private theorem movement_three (x y t : String) : c.ofPieces [x, y, t] = .ok item ↔
    ∃ time, Number.readBinary64? t.toList = some time ∧
      .instruction (make (Operand.read x) (.operand (Operand.read y)) (.float time)) = item := by
  rw [Command.ofPieces, hp, hb]
  simp only [Command.readPieces, movementParams, Kind.read]
  cases Number.readBinary64? t.toList with
  | none =>
    constructor
    · intro h
      cases h
    · intro h
      simp at h
  | some time =>
    simp only [Option.some.injEq, exists_eq_left']
    exact ⟨Except.ok.inj, congrArg Except.ok⟩

end

private theorem wait_one (t : String) : wait.ofPieces [t] = .ok (.instruction (.wait (Operand.read t))) := rfl

private theorem jump_none : jump.ofPieces [] =
    .ok (.instruction (.jump Operand.absent Instruction.unlinked .unnamed)) := rfl

private theorem jump_one (name : String) : jump.ofPieces [name] =
    .ok (.instruction (.jump Operand.absent Instruction.unlinked (.named name))) := rfl

private theorem jump_two (name n : String) : jump.ofPieces [name, n] =
    .ok (.instruction (.jump (Operand.read n) Instruction.unlinked (.named name))) := rfl

private theorem var_one (x : String) : var.ofPieces [x] ≠ .ok item := by
  change buildAssignment [.text x, .sign .none, .operand Operand.absent, .sign .none, .operand Operand.absent] ≠ _
  unfold buildAssignment
  dsimp only
  split <;> intro h <;> cases h

private theorem var_two (x e : String) : var.ofPieces [x, e] ≠ .ok item := by
  change buildAssignment [.text x, .text e, .sign .none, .operand Operand.absent, .operand Operand.absent] ≠ _
  unfold buildAssignment
  dsimp only
  split
  · split
    · rename_i heq
      simp at heq
    · intro h
      cases h
  · intro h
    cases h

private theorem assignment_iff {x e : String} {left right : Operand} {sign : MathSign} :
    buildAssignment [.text x, .text e, .operand left, .sign sign, .operand right] = .ok item ↔
      isVariableName x = true ∧ e = "=" ∧ .instruction (assignment x left right sign) = item := by
  unfold buildAssignment
  dsimp only
  split
  · rename_i hx
    split
    · rename_i heq
      obtain ⟨rfl, rfl, rfl, rfl⟩ : e = "=" ∧ _ = left ∧ _ = sign ∧ _ = right := by simpa [eq_comm] using heq
      simp [hx]
    · rename_i hne
      constructor
      · intro h
        cases h
      · rintro ⟨_, rfl, _⟩
        exact absurd rfl (hne left sign right)
  · rename_i hx
    simp [hx]

private theorem var_three (x e v : String) : var.ofPieces [x, e, v] = .ok item ↔
    isVariableName x = true ∧ e = "=" ∧ .instruction (.setVar x (Operand.read v)) = item :=
  assignment_iff

private theorem var_four (x e v s : String) : var.ofPieces [x, e, v, s] = .ok item ↔
    ∃ sign, MathSign.ofSpelling? s = some sign ∧ isVariableName x = true ∧ e = "=" ∧
      .instruction (assignment x (Operand.read v) Operand.absent sign) = item := by
  rw [Command.ofPieces]
  simp only [var, Command.readPieces, Kind.read]
  cases MathSign.ofSpelling? s with
  | none =>
    constructor
    · intro h
      cases h
    · intro h
      simp at h
  | some sign =>
    simp only [Option.some.injEq, exists_eq_left']
    exact assignment_iff

private theorem var_five (x e v s w : String) : var.ofPieces [x, e, v, s, w] = .ok item ↔
    ∃ sign, MathSign.ofSpelling? s = some sign ∧ isVariableName x = true ∧ e = "=" ∧
      .instruction (assignment x (Operand.read v) (Operand.read w) sign) = item := by
  rw [Command.ofPieces]
  simp only [var, Command.readPieces, Kind.read]
  cases MathSign.ofSpelling? s with
  | none =>
    constructor
    · intro h
      cases h
    · intro h
      simp at h
  | some sign =>
    simp only [Option.some.injEq, exists_eq_left']
    exact assignment_iff

/-- A movement is built of one, two or three pieces. -/
private theorem movement_builds {word : String} {make : Operand → Argument → Number → Instruction}
    (hm : Movement word make) (hs : c.separator = " ") (hp : c.params = movementParams)
    (hb : c.build = fun _ _ values => buildMovement make values) {args : String} (h : c.run 0 [] args = .ok item) :
    ∃ inst, item = .instruction inst ∧ (Documented word args inst ∨ Slip word args inst) := by
  rcases Command.pieces_of_run hs h with ⟨_, hnone⟩ | ⟨words, last, hcut, hne, rfl, hitem⟩
  · exact absurd hnone (movement_none hp hb)
  rw [hp] at hcut
  match words, hcut with
  | [], hcut =>
    have hfree : ' ' ∉ last.toList := hcut.rest.resolve_left (by decide)
    rw [List.nil_append, movement_one hp hb] at hitem
    rw [List.nil_append, Text.join_one] at hne ⊢
    exact ⟨_, (Except.ok.inj hitem).symm, .inr (.half hm hne hfree)⟩
  | [x], hcut =>
    have hx := hcut.unspaced x (by simp)
    have hfree : ' ' ∉ last.toList := hcut.rest.resolve_left (by simp [movementParams])
    rw [List.singleton_append, movement_two hp hb] at hitem
    exact ⟨_, (Except.ok.inj hitem).symm, .inl (.movement hm hx hfree)⟩
  | [x, y], hcut =>
    have hx := hcut.unspaced x (by simp)
    have hy := hcut.unspaced y (by simp)
    obtain ⟨time, ht, rfl⟩ := (movement_three hp hb x y last).mp hitem
    exact ⟨_, rfl, .inl (.timed hm hx hy ht)⟩
  | _ :: _ :: _ :: _, hcut => exact absurd hcut.count (by simp [movementParams])

private theorem wait_builds {args : String} (h : wait.run 0 [] args = .ok item) :
    ∃ inst, item = .instruction inst ∧ Documented "wait" args inst := by
  rcases Command.pieces_of_run rfl h with ⟨_, hnone⟩ | ⟨words, last, hcut, hne, rfl, hitem⟩
  · cases hnone
  obtain rfl : words = [] := List.eq_nil_of_length_eq_zero (Nat.le_zero.mp hcut.count)
  rw [List.nil_append, wait_one] at hitem
  rw [List.nil_append, Text.join_one] at hne ⊢
  exact ⟨_, (Except.ok.inj hitem).symm, .wait hne⟩

private theorem jump_builds {args : String} (h : jump.run 0 [] args = .ok item) :
    ∃ inst, item = .instruction inst ∧ (Documented "jump" args inst ∨ Slip "jump" args inst) := by
  rcases Command.pieces_of_run rfl h with ⟨rfl, hnone⟩ | ⟨words, last, hcut, hne, rfl, hitem⟩
  · exact ⟨_, (Except.ok.inj hnone).symm, .inr .nameless⟩
  match words, hcut with
  | [], hcut =>
    have hfree : ' ' ∉ last.toList := hcut.rest.resolve_left (by decide)
    rw [List.nil_append, jump_one] at hitem
    rw [List.nil_append, Text.join_one] at hne ⊢
    exact ⟨_, (Except.ok.inj hitem).symm, .inl (.jump hne hfree)⟩
  | [name], hcut =>
    have hname := hcut.unspaced name (by simp)
    exact ⟨_, (Except.ok.inj hitem).symm, .inl (.counted hname)⟩
  | _ :: _ :: _, hcut => exact absurd hcut.count (by simp [jump])

/-- An assignment is built of three, four or five pieces. -/
private theorem var_builds {args : String} (h : var.run 0 [] args = .ok item) :
    ∃ inst, item = .instruction inst ∧ (Documented "var" args inst ∨ Slip "var" args inst) := by
  rcases Command.pieces_of_run rfl h with ⟨_, hnone⟩ | ⟨words, last, hcut, hne, rfl, hitem⟩
  · cases hnone
  match words, hcut with
  | [], _ => exact absurd hitem (var_one last)
  | [x], _ => exact absurd hitem (var_two x last)
  | [x, e], hcut =>
    have hx := hcut.unspaced x (by simp)
    have hv : ' ' ∉ last.toList := hcut.rest.resolve_left (by simp [var])
    obtain ⟨hname, rfl, rfl⟩ := (var_three x e last).mp hitem
    exact ⟨_, rfl, .inl (.assign hx hname hv)⟩
  | [x, e, v], hcut =>
    have hx := hcut.unspaced x (by simp)
    have hv := hcut.unspaced v (by simp)
    obtain ⟨sign, hsign, hname, rfl, rfl⟩ := (var_four x e v last).mp hitem
    exact ⟨_, rfl, .inr (.dangling hx hname hv hsign)⟩
  | [x, e, v, s], hcut =>
    have hx := hcut.unspaced x (by simp)
    have hv := hcut.unspaced v (by simp)
    obtain ⟨sign, hsign, hname, rfl, rfl⟩ := (var_five x e v s last).mp hitem
    by_cases hnone : sign = .none
    · subst hnone
      obtain rfl : s = "noop" := by
        unfold MathSign.ofSpelling? at hsign
        split at hsign <;> simp_all
      exact ⟨_, rfl, .inr (.unsigned hx hname hv)⟩
    · exact ⟨_, rfl, .inl (.operate hx hname hv hsign hnone)⟩
  | _ :: _ :: _ :: _ :: _ :: _, hcut => exact absurd hcut.count (by simp [var])

end Standard

private theorem Movement.command {word : String} {make : Operand → Argument → Number → Instruction}
    (h : Movement word make) : ∃ c, findCommand? Standard.commands word = some c ∧ c.separator = " " ∧
      c.params = Standard.movementParams ∧ c.build = fun _ _ values => Standard.buildMovement make values := by
  cases h with
  | move => exact ⟨Standard.move, rfl, rfl, rfl, rfl⟩
  | moveRel => exact ⟨Standard.moveRel, rfl, rfl, rfl, rfl⟩

namespace Standard

variable {word args : String} {inst : Instruction}

/-- The documented forms build. -/
private theorem run_documented (h : Documented word args inst) :
    ∃ c, findCommand? commands word = some c ∧ c.run 0 [] args = .ok (.instruction inst) := by
  cases h with
  | @movement _ _ x y hm hx hy =>
    obtain ⟨c, hf, hs, hp, hb⟩ := hm.command
    have hcut : Text.Cut (c.params.length - 1) [x] y := by
      rw [hp]
      exact ⟨by simpa using hx, by simp [movementParams], .inr hy⟩
    exact ⟨c, hf, (Command.run_cut hs hcut (Text.join_ne_empty (by simp) x)).trans (movement_two hp hb x y)⟩
  | @timed _ _ x y t _ hm hx hy ht =>
    obtain ⟨c, hf, hs, hp, hb⟩ := hm.command
    have hcut : Text.Cut (c.params.length - 1) [x, y] t := by
      rw [hp]
      exact ⟨by simp [hx, hy], by simp [movementParams], .inl rfl⟩
    refine ⟨c, hf, (Command.run_cut hs hcut (Text.join_ne_empty (by simp) x)).trans ?_⟩
    exact (movement_three hp hb x y t).mpr ⟨_, ht, rfl⟩
  | wait hne => exact ⟨wait, rfl, (Command.run_one rfl hne (.inl rfl)).trans (wait_one args)⟩
  | jump hne hn => exact ⟨jump, rfl, (Command.run_one rfl hne (.inr hn)).trans (jump_one args)⟩
  | @counted name n hn =>
    have hcut : Text.Cut (jump.params.length - 1) [name] n := ⟨by simpa using hn, by simp [jump], .inl rfl⟩
    exact ⟨jump, rfl, (Command.run_cut (c := jump) rfl hcut (Text.join_ne_empty (by simp) name)).trans
      (jump_two name n)⟩
  | @assign x v hx hname hv =>
    have hcut : Text.Cut (var.params.length - 1) [x, "="] v := ⟨by simp [hx], by simp [var], .inr hv⟩
    refine ⟨var, rfl, (Command.run_cut (c := var) rfl hcut (Text.join_ne_empty (by simp) x)).trans ?_⟩
    exact (var_three x "=" v).mpr ⟨hname, rfl, rfl⟩
  | @operate x v s w sign hx hname hv hs _ =>
    have hcut : Text.Cut (var.params.length - 1) [x, "=", v, s] w :=
      ⟨by simp [hx, hv, MathSign.unspaced hs], by simp [var], .inl rfl⟩
    refine ⟨var, rfl, (Command.run_cut (c := var) rfl hcut (Text.join_ne_empty (by simp) x)).trans ?_⟩
    exact (var_five x "=" v s w).mpr ⟨sign, hs, hname, rfl, rfl⟩

private theorem run_slip (h : Slip word args inst) :
    ∃ c, findCommand? commands word = some c ∧ c.run 0 [] args = .ok (.instruction inst) := by
  cases h with
  | half hm hne hx =>
    obtain ⟨c, hf, hs, hp, hb⟩ := hm.command
    exact ⟨c, hf, (Command.run_one hs hne (.inr hx)).trans (movement_one hp hb args)⟩
  | nameless => exact ⟨jump, rfl, jump_none⟩
  | @dangling x v s sign hx hname hv hs =>
    have hcut : Text.Cut (var.params.length - 1) [x, "=", v] s :=
      ⟨by simp [hx, hv], by simp [var], .inr (MathSign.unspaced hs)⟩
    refine ⟨var, rfl, (Command.run_cut (c := var) rfl hcut (Text.join_ne_empty (by simp) x)).trans ?_⟩
    exact (var_four x "=" v s).mpr ⟨sign, hs, hname, rfl, rfl⟩
  | @unsigned x v w hx hname hv =>
    have hcut : Text.Cut (var.params.length - 1) [x, "=", v, "noop"] w := ⟨by simp [hx, hv], by simp [var], .inl rfl⟩
    refine ⟨var, rfl, (Command.run_cut (c := var) rfl hcut (Text.join_ne_empty (by simp) x)).trans ?_⟩
    exact (var_five x "=" v "noop" w).mpr ⟨.none, rfl, hname, rfl, rfl⟩

end Standard

namespace SourceLine

def valued : List String := ["move", "moverel", "wait", "jump", "var"]

/-- A line builds what its command builds of what follows the word. -/
private theorem alone_iff_run {line : List Char} {c : Command} {item : Built}
    (hf : findCommand? Standard.commands (word line) = some c) :
    alone line = .ok item ↔ c.run 0 [] (rest line) = .ok item := by
  change findCommand? Standard.commands (wordAndArgs line).1 = some c at hf
  rw [alone, Assembly.built_eq_ok, Command.run, rest]
  simp only [hf, Option.some.injEq, exists_and_left, exists_eq_left']
  cases c.bind (wordAndArgs line).2 with
  | error fault =>
    constructor
    · rintro ⟨_, h, _⟩
      cases h
    · intro h
      cases h
  | ok values =>
    simp only [Except.ok.injEq, exists_eq_left']
    rfl

/-- The lines with values that build are those of the documented forms and the slips. -/
theorem alone_valued {line : List Char} {item : Built} (hw : word line ∈ valued) :
    alone line = .ok item ↔ ∃ inst, item = .instruction inst ∧
      (Documented (word line) (rest line) inst ∨ Slip (word line) (rest line) inst) := by
  constructor
  · intro h
    have hrun {c : Command} (hf : findCommand? Standard.commands (word line) = some c) := (alone_iff_run hf).mp h
    simp only [valued, List.mem_cons, List.not_mem_nil, or_false] at hw
    rcases hw with hw | hw | hw | hw | hw <;> rw [hw] at hrun ⊢
    · exact Standard.movement_builds .move rfl rfl rfl (hrun rfl)
    · exact Standard.movement_builds .moveRel rfl rfl rfl (hrun rfl)
    · obtain ⟨inst, he, hd⟩ := Standard.wait_builds (hrun rfl)
      exact ⟨inst, he, .inl hd⟩
    · exact Standard.jump_builds (hrun rfl)
    · exact Standard.var_builds (hrun rfl)
  · rintro ⟨inst, rfl, h | h⟩
    · obtain ⟨c, hf, hrun⟩ := Standard.run_documented h
      exact (alone_iff_run hf).mpr hrun
    · obtain ⟨c, hf, hrun⟩ := Standard.run_slip h
      exact (alone_iff_run hf).mpr hrun

def bare : List (String × Instruction) :=
  [("end", .finish), ("doubleclick", .doubleClick), ("centermouse", .center), ("pause", .pause), ("goback", .goBack),
    ("setoffset", .setOffset), ("clearoffset", .clearOffset), ("return", .ret)]

/-- What the other lines build: what stands for their word, a click, a text to print, a call, or a variable to
print. -/
theorem alone_unvalued {line : List Char} {inst : Instruction} (hw : word line ∉ valued)
    (h : alone line = .ok (.instruction inst)) : (word line, inst) ∈ bare ∨ inst = .leftClick ∨ inst = .rightClick ∨
      (rest line ≠ "" ∧ inst = .print (rest line)) ∨
      inst = .call Operand.absent Instruction.unlinked (.named (rest line)) ∨ inst = .printVar (rest line) := by
  obtain ⟨c, values, hf, hv, hb⟩ := Assembly.built_eq_ok.mp h
  obtain ⟨hc, hword⟩ := word_of_find hf
  rw [← hword] at hw ⊢
  simp only [Standard.commands, List.mem_cons, List.not_mem_nil, or_false] at hc
  rcases hc with rfl | rfl | rfl | rfl | rfl | rfl | rfl | rfl | rfl | rfl | rfl | rfl | rfl | rfl | rfl | rfl |
    rfl | rfl
  all_goals try
    first
    | exact absurd (by decide) hw
    | obtain rfl := Built.instruction.inj (Except.ok.inj hb)
      exact .inl (by decide)
  -- Left are the clicks, printing a text, labels, calls and printing a variable.
  · simp only [Standard.click, Standard.misfit] at hb
    split at hb
    · obtain rfl := Built.instruction.inj (Except.ok.inj hb)
      split
      · exact .inr (.inr (.inl rfl))
      · exact .inr (.inl rfl)
    · cases hb
  · have hne : rest line ≠ "" := by
      intro he
      change Standard.print.bind (rest line) = .ok values at hv
      rw [he] at hv
      cases hv
    obtain rfl := Standard.bind_word rfl rfl hv
    exact .inr (.inr (.inr (.inl ⟨hne, (Built.instruction.inj (Except.ok.inj hb)).symm⟩)))
  · cases alone_label hword.symm h
  · exact .inr (.inr (.inr (.inr (.inl (Built.instruction.inj (alone_call hword.symm h))))))
  · obtain rfl := Standard.bind_word rfl rfl hv
    exact .inr (.inr (.inr (.inr (.inr (Built.instruction.inj (Except.ok.inj hb)).symm))))

end SourceLine

end PointerScript
