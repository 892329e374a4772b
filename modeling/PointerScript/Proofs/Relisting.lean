import PointerScript.Proofs.CommandForms
import PointerScript.Proofs.NeatText
import PointerScript.Proofs.Number.ReadBack
import PointerScript.Script.Listing

/-! Compiling what has been listed. The lines of a listing build the listed instructions again, with each
number read back from its text. A jump comes back without its count, and the listing has no label for it. -/

namespace PointerScript

open Text SourceLine

namespace Text

/-- A text that can stand behind the word of a line: not empty, neat, and without a comment or a line end. -/
def IsPhrase (s : String) : Prop :=
  s ≠ "" ∧ IsNeat s.toList ∧ ∀ c ∈ s.toList, c ≠ ';' ∧ isLineEnd c = false

instance (s : String) : Decidable (IsPhrase s) :=
  -- Decided over the characters of the text and not over all that there are.
  letI : Decidable (∀ c ∈ s.toList, c ≠ ';' ∧ isLineEnd c = false) := List.decidableBAll _ _
  inferInstanceAs (Decidable (_ ∧ _ ∧ _))

theorem join_toList {words : List String} (hne : words ≠ []) :
    (join " " words).toList = spaced (words.map String.toList) := by
  induction words with
  | nil => exact absurd rfl hne
  | cons word rest ih =>
    cases rest with
    | nil => rw [join_one]; rfl
    | cons next rest =>
      rw [join_cons (by simp), String.toList_append, String.toList_append, ih (by simp), List.append_assoc]
      rfl

theorem isPhrase_join {words : List String} (hne : words ≠ []) (h : ∀ word ∈ words, IsWord word) :
    IsPhrase (join " " words) := by
  have hchars : ∀ word ∈ words.map String.toList, IsWordChars word := List.forall_mem_map.mpr h
  refine ⟨?_, ?_, ?_⟩
  · intro he
    obtain ⟨⟨c, hc, _⟩, _⟩ := spaced_ends hchars (by simpa using hne)
    rw [← join_toList hne, he] at hc
    simp at hc
  · rw [join_toList hne]
    exact isNeat_spaced hchars
  · rw [join_toList hne]
    refine forall_mem_spaced (fun word hw c hc => ⟨((hchars word hw).2 c hc).2, ?_⟩) (by decide)
    by_contra he
    have hb := isBlank_of_isLineEnd (by simpa using he)
    simp [((hchars word hw).2 c hc).1] at hb

theorem isPhrase_word {word : String} (h : IsWord word) : IsPhrase word :=
  join_one word ▸ isPhrase_join (by simp) (List.forall_mem_singleton.mpr h)

end Text

namespace Number

theorem text_isWord (v : Number) : IsWord v.text := by
  cases v with
  | int n =>
    rw [IsWord, text, String.toList_ofList]
    exact intChars_unblank n
  | float x =>
    rw [IsWord, text, String.toList_ofList]
    exact binary64Chars_unblank x

/-- Whether a literal is a floating-point number, or a whole number that is one by its value. -/
def isExact : Number → Bool
  | float _ => true
  | int n => n.natAbs ≤ 2 ^ 53

theorem shown_exact {v : Number} (h : v.isExact = true) : v.shown = .ok v.text := by
  cases v with
  | float x => rfl
  | int n =>
    have hlength : (digitChars n.natAbs).length ≤ digitLimit := by
      refine ((Nat.length_toDigits_le_iff (by decide) (by decide)).mpr ?_ : _ ≤ 16).trans (by decide)
      exact lt_of_le_of_lt (of_decide_eq_true h) (by norm_num)
    rw [shown, if_neg (Nat.not_lt.mpr hlength)]

end Number

/-- The time of a movement as it is listed: one that is not positive is left out, and then there is none. -/
def Binary64.listedTime (time : Binary64) : Binary64 :=
  if (Number.int 0).lt (.float time) then time else .zero false

namespace Instruction

/-- The instruction that a line spells when it is read back: each number is read from its text. -/
def reread : Instruction → Instruction
  | wait (.literal t) => wait (Operand.read t.text)
  | move (.literal x) (.operand (.literal y)) time => move (Operand.read x.text) (.operand (Operand.read y.text)) time
  | inst => inst

end Instruction

/-- A word and a phrase behind it, and perhaps spaces, yield what they build alone. -/
theorem yields_phrase {line word args : String} {padding : List Char} {inst : Instruction}
    (hl : line.toList = word.toList ++ ' ' :: args.toList ++ padding) (hw : IsWord word) (ha : IsPhrase args)
    (hpadding : ∀ c ∈ padding, c = ' ')
    (h : alone (word.toList ++ ' ' :: args.toList) = .ok (.instruction inst)) : Yields line (.instruction inst) := by
  obtain ⟨hne, hneat, hchars⟩ := ha
  have hcomment : ∀ c ∈ word.toList ++ ' ' :: args.toList, c ≠ ';' :=
    List.forall_mem_append.mpr ⟨fun c hc => (hw.2 c hc).2,
      List.forall_mem_cons.mpr ⟨by decide, fun c hc => (hchars c hc).1⟩⟩
  have hplain : plainLine line.toList = word.toList ++ ' ' :: args.toList := by
    rw [hl]
    refine plainLine_neat ((isNeat_append hw).mpr ⟨?_, hneat⟩) (by simp) hcomment hpadding
    exact fun he => hne (String.toList_eq_nil_iff.mp he)
  refine ⟨?_, by simp [hplain], ?_⟩
  · rw [IsLine, hl]
    refine List.forall_mem_append.mpr ⟨List.forall_mem_append.mpr ⟨?_, ?_⟩, ?_⟩
    · exact fun c hc => ((isPhrase_word hw).2.2 c hc).2
    · exact List.forall_mem_cons.mpr ⟨by decide, fun c hc => (hchars c hc).2⟩
    · exact fun c hc => by rw [hpadding c hc]; rfl
  · intro a _
    rw [hplain]
    exact built_iff_alone.mpr ⟨h, fun name hn => Built.noConfusion hn⟩

theorem wordAndArgs_phrase {word : String} (hw : IsWord word) (args : String) :
    wordAndArgs (word.toList ++ ' ' :: args.toList) = (word, args) := by
  simp only [wordAndArgs, breakAt?_space (IsWordChars.no_space hw), String.ofList_toList]

/-- A line of a documented form yields what that form builds. -/
theorem yields_documented {line word args : String} {padding : List Char} {inst : Instruction}
    (hl : line.toList = word.toList ++ ' ' :: args.toList ++ padding) (hw : IsWord word) (ha : IsPhrase args)
    (hpadding : ∀ c ∈ padding, c = ' ') (hv : word ∈ valued) (h : Documented word args inst) :
    Yields line (.instruction inst) := by
  have hword : SourceLine.word (word.toList ++ ' ' :: args.toList) = word := by
    rw [SourceLine.word, wordAndArgs_phrase hw]
  have hrest : rest (word.toList ++ ' ' :: args.toList) = args := by rw [rest, wordAndArgs_phrase hw]
  refine yields_phrase hl hw ha hpadding ((alone_valued (hword.symm ▸ hv)).mpr ⟨inst, rfl, .inl ?_⟩)
  rwa [hword, hrest]

theorem yields_wait (t : Number) : Yields ("wait " ++ t.text) (.instruction (.wait (Operand.read t.text))) :=
  @yields_documented _ "wait" t.text [] _ (by simp) (by decide) (isPhrase_word t.text_isWord) (by simp) (by decide)
    (.wait (isPhrase_word t.text_isWord).1)

/-- The line of a movement between literals. A time that is not positive leaves a blank at its end. -/
def movementLine (word : String) (x y : Number) (time : Binary64) : String :=
  word ++ " " ++ x.text ++ " " ++ y.text ++ " " ++
    if (Number.int 0).lt (.float time) then (Number.float time).text else ""

theorem yields_movement {word : String} {make : Operand → Argument → Number → Instruction} (h : Movement word make)
    (x y : Number) (time : Binary64) : Yields (movementLine word x y time)
      (.instruction (make (Operand.read x.text) (.operand (Operand.read y.text)) (.float time.listedTime))) := by
  have hwords : IsWord word ∧ word ∈ valued := by cases h <;> decide
  have hunspaced (v : Number) : ' ' ∉ v.text.toList := fun hm => IsWordChars.no_space v.text_isWord _ hm rfl
  rw [movementLine, Binary64.listedTime]
  split
  · have hread : Number.readBinary64? (Number.float time).text.toList = some time := by
      rw [Number.text, String.toList_ofList, Number.readBinary64?_binary64Chars]
    refine @yields_documented _ word (join " " [x.text, y.text, (Number.float time).text]) [] _ ?_ hwords.1
      (isPhrase_join (by simp) ?_) (by simp) hwords.2 (.timed h (hunspaced x) (hunspaced y) hread)
    · simp [join_toList, spaced]
    · simp [Number.text_isWord]
  · refine @yields_documented _ word (join " " [x.text, y.text]) [' '] _ ?_ hwords.1
      (isPhrase_join (by simp) ?_) (by simp) hwords.2 (.movement h (hunspaced x) (hunspaced y))
    · simp [join_toList, spaced]
    · simp [Number.text_isWord]

namespace Listing

/-- An instruction is listed as a line that builds an instruction when it is compiled. -/
def Relists (read : Reader) (inst again : Instruction) : Prop :=
  ∃ text, entry read inst = .ok (.line text) ∧ Yields text (.instruction again)

/-- An instruction is listed as a line that builds it again. -/
def Listed (read : Reader) (inst : Instruction) : Prop :=
  inst.reread.isPlain = true ∧ Relists read inst inst.reread

section

variable (m : Machine)

theorem shown_literal {v : Number} (h : v.isExact = true) : shown (m.value (.literal v)) = .ok v.text := by
  change v.shown.mapError Fault.arithmetic = _
  rw [Number.shown_exact h]
  rfl

theorem relists_wait {t : Number} (h : t.isExact = true) :
    Relists (readerOf m) (.wait (.literal t)) (.wait (Operand.read t.text)) := by
  refine ⟨"wait " ++ t.text, ?_, yields_wait t⟩
  simp only [entry, readerOf, shown_literal m h]
  rfl

/-- A movement comes back with its coordinates read from their texts. -/
theorem relists_movement {word : String} {make : Operand → Argument → Number → Instruction} (h : Movement word make)
    {x y : Number} (hx : x.isExact = true) (hy : y.isExact = true) (time : Binary64) :
    Relists (readerOf m) (make (.literal x) (.operand (.literal y)) (.float time))
      (make (Operand.read x.text) (.operand (Operand.read y.text)) (.float time.listedTime)) := by
  have hentry {text : String}
      (ht : movement (readerOf m) word (.literal x) (.operand (.literal y)) (.float time) = .ok text) :
      entry (readerOf m) (make (.literal x) (.operand (.literal y)) (.float time)) = .ok (.line text) := by
    cases h <;> simp only [entry, ht] <;> rfl
  have hmovement : movement (readerOf m) word (.literal x) (.operand (.literal y)) (.float time) =
      .ok (movementLine word x y time) := by
    simp only [movement, readerOf, Machine.argument, shown_literal m hx, shown_literal m hy]
    rfl
  exact ⟨_, hentry hmovement, yields_movement h x y time⟩

/-- The instructions that are listed by words alone. -/
def bare : List Instruction :=
  [.leftClick, .rightClick, .doubleClick, .pause, .center, .goBack, .setOffset, .clearOffset]

theorem relists_bare {inst : Instruction} (h : inst ∈ bare) : Relists (readerOf m) inst inst := by
  simp only [bare, List.mem_cons, List.not_mem_nil, or_false] at h
  rcases h with rfl | rfl | rfl | rfl | rfl | rfl | rfl | rfl
  all_goals exact ⟨_, rfl, by decide, by decide, fun _ _ => rfl⟩

theorem relists_print {message : String} (h : IsPhrase message) :
    Relists (readerOf m) (.print message) (.print message) := by
  have hword : IsWord "print" := by decide
  have hbind : Standard.print.bind message = .ok [.text message] := by
    have he : message.isEmpty = false := by simpa using h.1
    simp [Command.bind, Command.pieces, he, Standard.print, Text.splitAtMost, Command.readPieces, Kind.read,
      Command.readDefaults, Command.fill, bind, Except.bind, pure, Except.pure, Except.mapError]
  refine ⟨"print " ++ message, rfl, @yields_phrase _ "print" message [] _ (by simp) hword h (by simp) ?_⟩
  rw [alone, Assembly.built_eq_ok, wordAndArgs_phrase hword]
  exact ⟨Standard.print, _, rfl, hbind, rfl⟩

/-- A jump comes back without its count, whatever it was. -/
theorem relists_jump {name : String} (h : IsWord name) (count : Operand) (target : Int) :
    Relists (readerOf m) (.jump count target (.named name))
      (.jump Operand.absent Instruction.unlinked (.named name)) :=
  ⟨"jump " ++ name, rfl, @yields_documented _ "jump" name [] _ (by simp) (by decide) (isPhrase_word h) (by simp)
    (by decide) (.jump (isPhrase_word h).1 fun hm => IsWordChars.no_space h _ hm rfl)⟩

theorem listed_wait (x : Binary64) : Listed (readerOf m) (.wait (.literal (.float x))) :=
  ⟨rfl, relists_wait m rfl⟩

theorem listed_move {x y : Int} (hx : x.natAbs ≤ 2 ^ 53) (hy : y.natAbs ≤ 2 ^ 53) :
    Listed (readerOf m) (.move (.literal (.int x)) (.operand (.literal (.int y))) (.float (.zero false))) := by
  have hzero : Binary64.listedTime (.zero false) = .zero false := by decide +kernel
  have hexact {n : Int} (hn : n.natAbs ≤ 2 ^ 53) : (Number.int n).isExact = true := decide_eq_true hn
  have hmove := relists_movement m .move (hexact hx) (hexact hy) (.zero false)
  rw [hzero] at hmove
  exact ⟨rfl, hmove⟩

theorem listed_click {inst : Instruction} (h : inst ∈ [Instruction.leftClick, .rightClick, .doubleClick]) :
    Listed (readerOf m) inst := by
  simp only [List.mem_cons, List.not_mem_nil, or_false] at h
  rcases h with rfl | rfl | rfl
  all_goals exact ⟨rfl, relists_bare m (by decide)⟩

end

/-- The lines of a program whose instructions are all listed but for setting up, which has no line. -/
theorem lines_relisted {read : Reader} {R : Instruction → Instruction → Prop} {program : List Instruction}
    (h : ∀ inst ∈ program, inst ≠ .setup → ∃ again, R inst again ∧ Relists read inst again) :
    ∃ texts code, lines read program = .ok (.ok texts) ∧ List.Forall₂ Yields texts (code.map .instruction) ∧
      List.Forall₂ R (program.filter (· ≠ .setup)) code := by
  induction program with
  | nil => exact ⟨[], [], rfl, .nil, .nil⟩
  | cons inst rest ih =>
    rw [List.forall_mem_cons] at h
    obtain ⟨texts, code, hlines, hyields, hcode⟩ := ih h.2
    by_cases hi : inst = .setup
    · subst hi
      exact ⟨texts, code, hlines, hyields, hcode⟩
    · obtain ⟨again, hr, text, hentry, hy⟩ := h.1 hi
      refine ⟨text :: texts, again :: code, ?_, .cons hy hyields, ?_⟩
      · rw [lines, hentry, hlines]
        rfl
      · rw [List.filter_cons_of_pos (by simpa using hi)]
        exact .cons hr hcode

theorem isLine_append {a b : String} (ha : IsLine a) (hb : IsLine b) : IsLine (a ++ b) := by
  rw [IsLine, String.toList_append]
  exact List.forall_mem_append.mpr ⟨ha, hb⟩

theorem isLine_twoDigits (n : Int) : IsLine (Moment.twoDigits n) := by
  have hdigits (k : Nat) : ∀ c ∈ (Nat.repr k).toList, isLineEnd c = false := by
    intro c hc
    rw [Nat.repr, String.toList_ofList] at hc
    have hd := Nat.isDigit_of_mem_toDigits (by decide) (by decide) hc
    by_contra he
    have hb := isBlank_of_isLineEnd (by simpa using he)
    simp [isBlank_of_isDigit hd] at hb
  have hint : IsLine (toString n) := by
    cases n with
    | ofNat k => exact hdigits k
    | negSucc k => exact isLine_append (by decide : IsLine "-") (hdigits _)
  unfold Moment.twoDigits
  split
  · exact isLine_append (by decide) hint
  · exact hint

/-- The lines at the start of a listing are comments and a blank line. -/
theorem header_blank (now : Moment) : ∀ line ∈ header now, IsLine line ∧ plainLine line.toList = [] := by
  have hcomment (text : String) : plainLine (';' :: text.toList) = [] := by
    simp [plainLine, trim, trimWhile, collapse, collapseFrom]
  have hnow : IsLine now.text := by
    have hnext {text sign : String} (ht : IsLine text) (hs : IsLine sign) (n : Int) :
        IsLine (text ++ sign ++ Moment.twoDigits n) :=
      isLine_append (isLine_append ht hs) (isLine_twoDigits n)
    have hdate := hnext (isLine_twoDigits now.month) (by decide : IsLine "-") now.day
    have hhour := hnext hdate (by decide : IsLine " ") now.hour
    have hminute := hnext hhour (by decide : IsLine ":") now.minute
    exact hnext hminute (by decide : IsLine ":") now.second
  simp only [header, List.forall_mem_cons, List.not_mem_nil, false_implies, implies_true, and_true]
  refine ⟨⟨by decide, by decide⟩, ⟨isLine_append (by decide) hnow, ?_⟩, by decide, by decide⟩
  rw [String.toList_append]
  exact hcomment (" Generated automatically by Mouse Recorder | " ++ now.text)

end Listing

/-- The lines of a text that is joined from lines; an empty line at its end does not count. -/
theorem sourceLines_intercalate {lines : List String} (h : ∀ line ∈ lines, IsLine line) :
    sourceLines ("\n".intercalate lines) = writtenLines (lines.map String.toList) := by
  induction lines with
  | nil => rfl
  | cons line rest ih =>
    rw [List.forall_mem_cons] at h
    cases rest with
    | nil =>
      rw [sourceLines, String.intercalate_singleton]
      by_cases hempty : line.toList = []
      · rw [hempty, List.map_singleton, hempty]
        rfl
      · rw [lines_single h.1 hempty, List.map_singleton]
    | cons next rest =>
      have hlines : Text.lines ("\n".intercalate (line :: next :: rest)).toList =
          [line.toList] ++ Text.lines ("\n".intercalate (next :: rest)).toList := by
        rw [String.intercalate_cons_cons, String.toList_append, String.toList_append, List.append_assoc]
        exact lines_append h.1 _
      have hrest := ih h.2
      rw [sourceLines] at hrest ⊢
      rw [hlines, writtenLines_append, hrest, ← writtenLines_append]
      rfl

/-- Lines that yield instructions build these alone. -/
theorem alone_yields {lines : List String} {items : List Built} (h : List.Forall₂ Yields lines items)
    (hplain : namesOf items = []) :
    (writtenLines (lines.map String.toList)).map SourceLine.alone = items.map .ok := by
  induction h with
  | nil => rfl
  | @cons line item lines items hy _ ih =>
    rw [namesOf_cons, List.append_eq_nil_iff] at hplain
    have hlabel : ∀ name, item = .label name → name ∉ ({} : Assembly).labels.map Prod.fst := by simp
    rw [List.map_cons, writtenLines_cons hy.written, List.map_cons, List.map_cons, ih hplain.2, SourceLine.alone,
      hy.built {} hlabel]

/-- The lines at the start of a listing do not count. -/
theorem Listing.sourceLines_header {texts : List String} (h : ∀ line ∈ texts, IsLine line) (now : Moment) :
    sourceLines ("\n".intercalate (header now ++ texts)) = writtenLines (texts.map String.toList) := by
  have hline : ∀ line ∈ header now ++ texts, IsLine line :=
    List.forall_mem_append.mpr ⟨fun line hl => (header_blank now line hl).1, h⟩
  have hheader : writtenLines ((header now).map String.toList) = [] := by
    rw [writtenLines, List.filter_eq_nil_iff, List.map_map, List.forall_mem_map]
    intro line hl
    simp [(header_blank now line hl).2]
  rw [sourceLines_intercalate hline, List.map_append, writtenLines_append, hheader, List.nil_append]

/-- The lines of a listing build their instructions. No label is defined, so nothing else than a jump or a call
keeps the listing from being compiled. -/
theorem Listing.compile_lines {texts : List String} {code : List Instruction}
    (h : List.Forall₂ Yields texts (code.map .instruction)) (now : Moment) (safe : Bool) {program : Array Instruction} :
    (compile safe ("\n".intercalate (header now ++ texts))).1 = .program program ↔
      (∀ inst ∈ code, inst.label? = none) ∧ program.toList = Standard.initial safe ++ code := by
  have hnames : namesOf (code.map .instruction) = [] := by
    simp [namesOf, Built.label?]
  have hcode : codeOf (code.map .instruction) = code := by
    simp [codeOf, Built.instruction?, Function.comp_def]
  have hlabels : labelsOf (Standard.initial safe) (code.map .instruction) = [] := by
    rw [← List.map_eq_nil_iff, labelsOf, placesFrom_names, hnames]
  have hdefines (inst : Instruction) : Labels.Defines [] inst ↔ inst.label? = none := by
    rw [Labels.Defines]
    cases inst.label? with
    | none => simp
    | some name => cases name <;> simp [Labels.find?]
  have hresolve {inst : Instruction} (hi : inst.label? = none) : Labels.resolve [] inst = inst := by
    rw [Labels.resolve, hi]
    rfl
  rw [compile_eq_alone, sourceLines_header (isLine_of_yields h), alone_yields h hnames]
  constructor
  · rintro ⟨items, hitems, _, hd, hp⟩
    obtain rfl : code.map .instruction = items := List.map_injective_iff.mpr (fun _ _ => Except.ok.inj) hitems
    rw [hlabels, hcode] at hd hp
    have hnone : ∀ inst ∈ code, inst.label? = none := fun inst hi => (hdefines inst).mp (hd inst hi)
    refine ⟨hnone, ?_⟩
    rw [hp, List.map_congr_left fun inst hi => hresolve (hnone inst hi), List.map_id']
  · rintro ⟨hnone, hp⟩
    refine ⟨_, rfl, by simp [hnames], ?_, ?_⟩ <;> rw [hlabels, hcode]
    · exact fun inst hi => (hdefines inst).mpr (hnone inst hi)
    · rw [hp, List.map_congr_left fun inst hi => hresolve (hnone inst hi), List.map_id']

/-- The source text of a listed program builds its instructions again, each as it is read back. -/
theorem Listing.compile_source {read : Reader} {program : List Instruction}
    (h : ∀ inst ∈ program, Listed read inst) (now : Moment) (safe : Bool) :
    ∃ text, source read now program = (.ok text, #[]) ∧
      (compile safe text).1 = .program (Standard.initial safe ++ program.map Instruction.reread).toArray := by
  obtain ⟨texts, code, hlines, hyields, hcode⟩ := @lines_relisted read (fun inst again => inst.reread = again) program
    fun inst hi _ => ⟨inst.reread, rfl, (h inst hi).2⟩
  have hsetup : program.filter (· ≠ .setup) = program := by
    refine List.filter_eq_self.mpr fun inst hi => decide_eq_true ?_
    rintro rfl
    exact absurd (h _ hi).1 Bool.false_ne_true
  rw [hsetup, ← List.forall₂_map_left_iff, List.forall₂_eq_eq_eq] at hcode
  subst hcode
  refine ⟨_, by rw [source, hlines], (compile_lines hyields now safe).mpr ⟨?_, rfl⟩⟩
  exact List.forall_mem_map.mpr fun inst hi => label?_plain (h inst hi).1

end PointerScript
