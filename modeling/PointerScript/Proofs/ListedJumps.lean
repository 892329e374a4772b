import PointerScript.Proofs.Evaluation
import PointerScript.Proofs.Relisting

/-! Listing a compiled program that may jump. The line of a jump holds the name of its label alone: its count and its
target are lost, and no line of a listing defines the label. So the listing of a compiled program can be compiled
again exactly if the program never jumps; then all comes back, with the time that every program waits at its start
listed as one more wait. -/

namespace PointerScript

open Text SourceLine

/-- A line is its first word alone, or the word and the rest with a space between them. -/
theorem SourceLine.word_rest (line : List Char) : ((word line).toList = line ∧ rest line = "") ∨
    line = (word line).toList ++ ' ' :: (rest line).toList := by
  unfold word rest wordAndArgs
  cases hb : breakAt? [' '] line with
  | none => exact .inl ⟨String.toList_ofList, rfl⟩
  | some parts =>
    right
    rw [String.toList_ofList, String.toList_ofList]
    exact (no_space_of_breakAt? hb).1

namespace Text

/-- The first word of a phrase is a word. -/
theorem IsPhrase.word {s : String} (h : IsPhrase s) : IsWord (word s.toList) := by
  obtain ⟨hne, hneat, hchars⟩ := h
  refine ⟨?_, ?_⟩
  · -- A text whose first word is empty is empty or starts with a space.
    intro hempty
    rcases word_rest s.toList with ⟨hs, _⟩ | hs
    · exact hne (String.toList_eq_nil_iff.mp (hs.symm.trans hempty))
    · rw [hempty, List.nil_append] at hs
      have hblank := (trim_eq_self.mp hneat.1).1 ' ' (by rw [hs]; rfl)
      exact absurd hblank (by decide)
  · intro c hc
    obtain ⟨hm, hspace⟩ := mem_of_mem_word hc
    refine ⟨Bool.eq_false_iff.mpr fun hb => hspace ?_, (hchars c hm).1⟩
    have hcollapsed : c ∈ collapseFrom false s.toList := by
      rw [show collapseFrom false s.toList = s.toList from hneat.2]
      exact hm
    exact space_of_mem_collapseFrom hcollapsed hb

/-- What follows the first word of a phrase, if anything does, is a phrase. -/
theorem IsPhrase.rest {s : String} (h : IsPhrase s) (hr : rest s.toList ≠ "") : IsPhrase (rest s.toList) := by
  refine ⟨hr, ?_, fun c hc => h.2.2 c (mem_of_mem_rest hc)⟩
  rcases word_rest s.toList with ⟨_, he⟩ | hs
  · exact absurd he hr
  · have hneat := h.2.1
    rw [hs] at hneat
    exact ((isNeat_append h.word).mp hneat).2

end Text

/-- The lines of a source text are phrases. -/
theorem isPhrase_of_mem_sourceLines {source : String} {line : List Char} (hl : line ∈ sourceLines source) :
    IsPhrase (String.ofList line) := by
  obtain ⟨hm, hne⟩ := List.mem_filter.mp hl
  obtain ⟨raw, hraw, rfl⟩ := List.mem_map.mp hm
  rw [IsPhrase, String.toList_ofList]
  refine ⟨?_, isNeat_plainLine raw, fun c hc => ⟨no_comment_plainLine raw c hc, ?_⟩⟩
  · intro he
    rw [String.ofList_eq_empty_iff.mp he] at hne
    exact absurd hne (by decide)
  · by_cases hs : c = ' '
    · rw [hs]
      rfl
    · exact (mem_of_mem_sourceLines hl hc hs).2

theorem isPhrase_rest {source : String} {line : List Char} (hl : line ∈ sourceLines source) (hr : rest line ≠ "") :
    IsPhrase (rest line) := by
  have hrest := @IsPhrase.rest _ (isPhrase_of_mem_sourceLines hl)
  rw [String.toList_ofList] at hrest
  exact hrest hr

/-- A literal that was read is read back from its own text. -/
theorem Operand.read_literal {s : String} {v : Number} (h : read s = .literal v) :
    v.isExact = true ∧ read v.text = .literal v := by
  unfold read at h
  dsimp only at h
  split at h
  · obtain rfl := Operand.literal.inj h
    exact ⟨rfl, read_float _⟩
  · cases h

namespace Instruction

/-- Whether an instruction has a line in listings, and literals where it takes values. -/
def isListable : Instruction → Bool
  | move (.literal _) (.operand (.literal _)) _ | moveRel (.literal _) (.operand (.literal _)) _ | wait (.literal _)
  | print _ | jump _ _ _ => true
  | inst => inst = setup || inst ∈ Listing.bare

/-- What comes back of an instruction from its line in a listing: a movement loses a time that is not positive, a jump
its count and its target. -/
def relisted : Instruction → Instruction
  | move x y (.float time) => move x y (.float time.listedTime)
  | moveRel x y (.float time) => moveRel x y (.float time.listedTime)
  | jump _ _ label => jump Operand.absent unlinked label
  | inst => inst

theorem label?_relisted (inst : Instruction) : inst.relisted.label? = inst.label? := by
  unfold relisted
  split <;> rfl

theorem withTarget_unlabelled {inst : Instruction} (h : inst.label? = none) (target : Int) :
    inst.withTarget target = inst := by
  cases inst with
  | jump | call => cases h
  | _ => rfl

/-- Two instructions are the same but for the counts and the targets of jumps. -/
inductive Resteered : Instruction → Instruction → Prop
  | same (inst : Instruction) : Resteered inst inst
  | jump (count count' : Operand) (target target' : Int) (label : LabelName) :
      Resteered (jump count target label) (jump count' target' label)

end Instruction

namespace Listing

theorem lines_resteered (read : Reader) {program other : List Instruction}
    (h : List.Forall₂ Instruction.Resteered program other) : lines read other = lines read program := by
  induction h with
  | nil => rfl
  | cons hr _ ih =>
    cases hr with
    | same inst => rw [lines, lines, ih]
    | jump count count' target target' label =>
      rw [lines, lines, ih, entry, entry]
      rfl

/-- The counts and the targets of jumps do not show in a listing. -/
theorem source_resteered (read : Reader) (now : Moment) {program other : List Instruction}
    (h : List.Forall₂ Instruction.Resteered program other) : source read now other = source read now program := by
  rw [source, source, lines_resteered read h]

section

variable (m : Machine) {source : String} {program : Array Instruction} {inst : Instruction}

private theorem relists_coordinates {word : String} {make : Operand → Argument → Number → Instruction}
    (hm : Movement word make) {x y : String} {time : Binary64}
    (h : (make (Operand.read x) (.operand (Operand.read y)) (.float time)).isListable = true) :
    Relists (readerOf m) (make (Operand.read x) (.operand (Operand.read y)) (.float time))
      (make (Operand.read x) (.operand (Operand.read y)) (.float time)).relisted := by
  have hback (a b : Operand) : (make a (.operand b) (.float time)).relisted =
      make a (.operand b) (.float time.listedTime) := by
    cases hm <;> rfl
  cases hx : Operand.read x with
  | named name =>
    rw [hx] at h
    cases hm <;> simp [Instruction.isListable, Listing.bare] at h
  | literal v =>
    cases hy : Operand.read y with
    | named name =>
      rw [hx, hy] at h
      cases hm <;> simp [Instruction.isListable, Listing.bare] at h
    | literal w =>
      obtain ⟨hv, hreadv⟩ := Operand.read_literal hx
      obtain ⟨hw, hreadw⟩ := Operand.read_literal hy
      have hrelists := relists_movement m hm hv hw time
      rwa [hreadv, hreadw, ← hback] at hrelists

private theorem relists_time {t : String} (h : (Instruction.wait (Operand.read t)).isListable = true) :
    Relists (readerOf m) (.wait (Operand.read t)) (.wait (Operand.read t)) := by
  cases ht : Operand.read t with
  | named name =>
    rw [ht] at h
    simp [Instruction.isListable, Listing.bare] at h
  | literal v =>
    obtain ⟨hv, hread⟩ := Operand.read_literal ht
    have hrelists := relists_wait m hv
    rwa [hread] at hrelists

private theorem relists_documented {word args : String} (h : Documented word args inst) (hj : word ≠ "jump")
    (hl : inst.isListable = true) : Relists (readerOf m) inst inst.relisted := by
  cases h with
  | movement hm => exact relists_coordinates m hm hl
  | timed hm => exact relists_coordinates m hm hl
  | wait => exact relists_time m hl
  | jump | counted => exact absurd rfl hj
  | assign => simp [Instruction.isListable, Listing.bare] at hl
  | @operate x v s w sign => cases sign <;> simp [Standard.assignment, Instruction.isListable, Listing.bare] at hl

private theorem unlistable_slip {word args : String} (h : Slip word args inst) (hj : word ≠ "jump") :
    inst.isListable = false := by
  cases h with
  | half hm => cases hm <;> simp [Instruction.isListable, Listing.bare]
  | nameless => exact absurd rfl hj
  | @dangling x v s sign => cases sign <;> simp [Standard.assignment, Instruction.isListable, Listing.bare]
  | unsigned => simp [Instruction.isListable, Listing.bare]

/-- What a line that is no jump builds alone comes back if it has a line in listings. -/
private theorem relists_alone {line : List Char} (hline : line ∈ sourceLines source)
    (hbuilt : alone line = .ok (.instruction inst)) (hj : word line ≠ "jump") (hl : inst.isListable = true) :
    Relists (readerOf m) inst inst.relisted := by
  by_cases hw : word line ∈ valued
  · obtain ⟨other, he, hform⟩ := (alone_valued hw).mp hbuilt
    obtain rfl := Built.instruction.inj he
    rcases hform with hd | hslip
    · exact relists_documented m hd hj hl
    · exact absurd hl (by rw [unlistable_slip hslip hj]; decide)
  · rcases alone_unvalued hw hbuilt with hbare | rfl | rfl | ⟨hne, rfl⟩ | rfl | rfl
    · have hall : ∀ entry ∈ SourceLine.bare, entry.2.isListable = true →
          entry.2 ∈ Listing.bare ∧ entry.2.relisted = entry.2 := by decide
      obtain ⟨hin, hback⟩ := hall _ hbare hl
      exact hback.symm ▸ relists_bare m hin
    · exact relists_bare m (by decide)
    · exact relists_bare m (by decide)
    · exact relists_print m (isPhrase_rest hline hne)
    · simp [Instruction.isListable, Listing.bare] at hl
    · simp [Instruction.isListable, Listing.bare] at hl

/-- Every instruction of a compiled program that has a line in listings comes back from it. -/
theorem relists_compiled (h : (compile false source).1 = .program program) (hi : inst ∈ program)
    (hl : inst.isListable = true) (hs : inst ≠ .setup) : Relists (readerOf m) inst inst.relisted := by
  rcases mem_of_compile h hi with hinit | ⟨line, hline, built, hbuilt, hsame⟩
  · simp only [Standard.initial, Bool.false_eq_true, if_false, List.append_nil, List.mem_cons, List.not_mem_nil,
      or_false] at hinit
    rcases hinit with rfl | rfl
    · exact absurd rfl hs
    · have hrelists := @relists_wait m (.float (Decimal.nearest false ⟨5, -1⟩)) rfl
      rwa [Operand.read_float] at hrelists
  · by_cases hjump : word line = "jump"
    · obtain ⟨label, hgoal, he⟩ := alone_jump hjump hbuilt
      obtain rfl := Built.instruction.inj he
      have hne := jump_named h hline hjump
      obtain rfl : LabelName.named (word (rest line).toList) = label := by
        simpa [goal?, hjump, hne] using hgoal
      rcases hsame with rfl | ⟨target, rfl⟩
      · exact relists_jump m (isPhrase_rest hline hne).word _ _
      · exact relists_jump m (isPhrase_rest hline hne).word _ _
    · by_cases hcall : word line = "call"
      · obtain rfl := Built.instruction.inj (alone_call hcall hbuilt)
        rcases hsame with rfl | ⟨target, rfl⟩ <;>
          simp [Instruction.withTarget, Instruction.isListable, Listing.bare] at hl
      · have hlabel : word line ≠ "label" := fun hw => by cases alone_label hw hbuilt
        obtain ⟨other, he, hnone, _⟩ := alone_other hlabel hcall hjump hbuilt
        obtain rfl := Built.instruction.inj he
        obtain rfl : inst = built := by
          rcases hsame with rfl | ⟨target, rfl⟩
          · rfl
          · exact Instruction.withTarget_unlabelled hnone target
        exact relists_alone m hline hbuilt hjump hl

end

end Listing

/-- A compiled program sets up once, at its start. -/
theorem Laid.filter_setup {safe : Bool} {program : Array Instruction} (h : Laid safe program) :
    program.toList.filter (· ≠ .setup) = program.toList.tail := by
  obtain ⟨rest, hrest⟩ := List.head?_eq_some_iff.mp (by simpa [List.head?_eq_getElem?] using h.setup :
    program.toList.head? = some .setup)
  have hlater : ∀ inst ∈ rest, inst ≠ .setup := by
    rintro inst hi rfl
    obtain ⟨index, hindex⟩ := List.getElem?_of_mem hi
    have hat : program[index + 1]? = some .setup := by
      rw [← Array.getElem?_toList, hrest, List.getElem?_cons_succ, hindex]
    rcases h.behind (Nat.succ_ne_zero index) hat with hplain | hsafe | ⟨_, hfits⟩
    · exact absurd hplain Bool.false_ne_true
    · cases hsafe
    · exact hfits
  rw [hrest, List.tail_cons, List.filter_cons_of_neg (by simp), List.filter_eq_self]
  exact fun inst hi => decide_eq_true (hlater inst hi)

/-- What becomes of a compiled program that is listed. All its instructions that can be listed are; the counts and the
targets of its jumps do not show; and the listing can be compiled exactly if no instruction jumps. Then it gives the
initial instructions and after them, once more from the wait on, those of the program. -/
theorem listing_loses_jumps {source : String} {program : Array Instruction}
    (h : (compile false source).1 = .program program) (hl : ∀ inst ∈ program, inst.isListable = true)
    (m : Machine) (now : Moment) :
    (∀ other, List.Forall₂ Instruction.Resteered program.toList other →
      Listing.source (Listing.readerOf m) now other = Listing.source (Listing.readerOf m) now program.toList) ∧
    ∃ text, Listing.source (Listing.readerOf m) now program.toList = (.ok text, #[]) ∧
      ∀ again, (compile false text).1 = .program again ↔
        (∀ inst ∈ program, inst.label? = none) ∧
          again.toList = Standard.initial false ++ program.toList.tail.map Instruction.relisted := by
  refine ⟨fun other ho => Listing.source_resteered _ now ho, ?_⟩
  have hlaid := laid_of_compile h
  obtain ⟨texts, code, hlines, hyields, hcode⟩ := @Listing.lines_relisted (Listing.readerOf m)
    (fun inst again => inst.relisted = again) program.toList fun inst hi hs =>
      ⟨inst.relisted, rfl, Listing.relists_compiled m h (Array.mem_toList_iff.mp hi)
        (hl inst (Array.mem_toList_iff.mp hi)) hs⟩
  rw [hlaid.filter_setup, ← List.forall₂_map_left_iff, List.forall₂_eq_eq_eq] at hcode
  subst hcode
  refine ⟨"\n".intercalate (Listing.header now ++ texts), by rw [Listing.source, hlines], fun again => ?_⟩
  have hlabels : (∀ inst ∈ program.toList.tail.map Instruction.relisted, inst.label? = none) ↔
      ∀ inst ∈ program, inst.label? = none := by
    simp only [List.forall_mem_map, Instruction.label?_relisted, ← Array.mem_toList_iff]
    constructor
    · intro hall inst hi
      by_cases hs : inst = .setup
      · rw [hs]
        rfl
      · refine hall inst ?_
        rw [← hlaid.filter_setup]
        exact List.mem_filter.mpr ⟨hi, decide_eq_true hs⟩
    · exact fun hall inst hi => hall inst (List.mem_of_mem_tail hi)
  rw [Listing.compile_lines hyields now false, hlabels]

/-- A script without jumps comes back, but for the negative time of its movement. -/
theorem straight_script_is_listed :
    let number (n : Int) : Number := .float (Binary64.ofInt n)
    let move (time : Number) : Instruction := .move (.literal (number 1)) (.operand (.literal (number 2))) time
    let body : List Instruction := [.leftClick, .print "two words"]
    let program := (Standard.initial false ++ move (number (-3)) :: body).toArray
    (compile false "move 1 2 -3\nclick\nprint two   words").1 = .program program ∧
    (∀ inst ∈ program, inst.isListable = true) ∧
    ∃ text, Listing.source (Listing.readerOf {}) {} program.toList = (.ok text, #[]) ∧
      (compile false text).1 = .program (Standard.initial false ++
        (Standard.initial false).tail ++ move (.float (.zero false)) :: body).toArray := by
  intro number move body program
  have hc : (compile false "move 1 2 -3\nclick\nprint two   words").1 = .program program := by decide +kernel
  have hl : ∀ inst ∈ program, inst.isListable = true := by decide +kernel
  obtain ⟨_, text, htext, hagain⟩ := listing_loses_jumps hc hl {} {}
  exact ⟨hc, hl, text, htext, (hagain _).mpr ⟨by decide +kernel, by decide +kernel⟩⟩

/-- The listing of a loop cannot be compiled: its jump goes to a label that no line defines. -/
theorem loop_is_not_listed :
    let body : List Instruction := [.leftClick, .jump (.literal (.float (Binary64.ofInt 3))) 2 (.named "a")]
    let program := (Standard.initial false ++ body).toArray
    (compile false "label a\nclick\njump a 3").1 = .program program ∧
    ∃ text, Listing.source (Listing.readerOf {}) {} program.toList = (.ok text, #[]) ∧
      (compile false text).1 = .failed := by
  intro body program
  let header := "; Decompiled source code\n; Generated automatically by Mouse Recorder | 01-02 03:04:05\n\n"
  exact ⟨by decide +kernel, header ++ "wait 0.5\nclick left\njump a", by decide +kernel, by decide +kernel⟩

end PointerScript
