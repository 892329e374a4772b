import PointerScript.Proofs.Encoding
import PointerScript.Proofs.Json.Numerals

/-! JSON values that are written and read again. What is written for a value, one item to a line, is read as the same
value, unless it is nested too deep, has a whole number of too many digits or a key twice; and no text is read as a value
of that kind. -/

namespace PointerScript

namespace Json

open Text

/-! ## Texts in quotes -/

theorem hexValue?_hexDigit {d : Nat} (h : d < 16) : hexValue? (hexDigit d) = some d := by
  revert d
  decide

theorem readHex4?_hexDigits {n : Nat} (h : n < 65536) (rest : List Char) :
    readHex4? (hexDigits 4 n ++ rest) = some (n, rest) := by
  simp only [hexDigits, List.nil_append, List.cons_append, readHex4?]
  rw [hexValue?_hexDigit (Nat.mod_lt _ (by decide)), hexValue?_hexDigit (Nat.mod_lt _ (by decide)),
    hexValue?_hexDigit (Nat.mod_lt _ (by decide)), hexValue?_hexDigit (Nat.mod_lt _ (by decide))]
  simp only [Option.bind_eq_bind, Option.bind_some, Option.pure_def, Option.some.injEq, Prod.mk.injEq, and_true]
  omega

/-- A character below the space is read from its escape. -/
theorem readEscapedUnit?_hexDigits {c : Char} (h : c.toNat < 0x20) (rest : List Char) :
    readEscapedUnit? (hexDigits 4 c.toNat ++ rest) = some (.char c, rest) := by
  have hhigh : isHighHalf c.toNat = false := by
    simp only [isHighHalf, Bool.and_eq_false_iff, decide_eq_false_iff_not]
    omega
  have hpoint : CodePoint.ofNat c.toNat = .char c := by
    rw [CodePoint.ofNat, dif_neg (by omega), Char.ofNat_toNat]
  rw [readEscapedUnit?, readHex4?_hexDigits (by omega)]
  simp [hhigh, hpoint]

/-- The characters that are written outside texts. -/
def isPlain (c : Char) : Bool :=
  c = '\n' || c = ' ' || isGraphic c

/-- A character is written as an escape of one letter, as one of four digits, or as itself. -/
theorem writeChar_cases (c : Char) :
    (∃ e, writeChar false c = ['\\', e] ∧ escapedChar? e = some c ∧ e ≠ 'u' ∧ isPlain e = true ∧ c.toNat < 0x7f) ∨
      (writeChar false c = '\\' :: 'u' :: hexDigits 4 c.toNat ∧ c.toNat < 0x20) ∨
      writeChar false c = [c] ∧ c ≠ '"' ∧ c ≠ '\\' ∧ 0x20 ≤ c.toNat := by
  have hchar {n : Nat} (h : c.toNat = n) : c = Char.ofNat n := by rw [← h, Char.ofNat_toNat]
  simp only [writeChar, beq_iff_eq, Bool.false_and, Bool.false_eq_true, if_false]
  split
  · rename_i h
    exact .inl ⟨'"', rfl, by subst h; decide⟩
  split
  · rename_i h
    exact .inl ⟨'\\', rfl, by subst h; decide⟩
  split
  · rename_i h
    exact .inl ⟨'n', rfl, by subst h; decide⟩
  split
  · rename_i h
    exact .inl ⟨'r', rfl, by subst h; decide⟩
  split
  · rename_i h
    exact .inl ⟨'t', rfl, by subst h; decide⟩
  split
  · rename_i h
    exact .inl ⟨'b', rfl, by rw [hchar h]; decide⟩
  split
  · rename_i h
    exact .inl ⟨'f', rfl, by rw [hchar h]; decide⟩
  split
  · rename_i h
    exact .inr (.inl ⟨rfl, h⟩)
  · rename_i hquote hslash _ _ _ _ _ h
    exact .inr (.inr ⟨rfl, hquote, hslash, Nat.not_lt.mp h⟩)

/-- Reading takes what was written for a character. -/
theorem readString?_writeChar (c : Char) (fuel : Nat) (done : WideText) (rest : List Char) :
    readString? (fuel + 1) done (writeChar false c ++ rest) = readString? fuel (.char c :: done) rest := by
  rcases writeChar_cases c with ⟨e, hwrite, hescape, hu, -⟩ | ⟨hwrite, hsmall⟩ | ⟨hwrite, hquote, hslash, hlarge⟩
  · rw [hwrite, List.cons_append, List.singleton_append, readString?, hescape]
    · rfl
    · rintro ⟨⟩
      exact hu rfl
  · rw [hwrite, List.cons_append, List.cons_append, readString?, readEscapedUnit?_hexDigits hsmall]
    rfl
  · rw [hwrite, List.singleton_append, readString?, if_neg (Nat.not_lt.mpr hlarge)]
    · exact hquote
    · intro _ he _
      exact hslash he
    · intro _ _ he _
      exact hslash he

theorem writeChar_ne_nil (c : Char) : writeChar false c ≠ [] := by
  rcases writeChar_cases c with ⟨e, hwrite, -⟩ | ⟨hwrite, -⟩ | ⟨hwrite, -⟩ <;> simp [hwrite]

/-- A text is read back up to its closing quote. -/
theorem readString?_flatMap (cs : List Char) {fuel : Nat} (h : (cs.flatMap (writeChar false)).length < fuel)
    (done : WideText) (rest : List Char) :
    readString? fuel done (cs.flatMap (writeChar false) ++ '"' :: rest) =
      some (done.reverse ++ WideText.ofChars cs, rest) := by
  induction cs generalizing fuel done with
  | nil =>
    obtain ⟨fuel, rfl⟩ : ∃ k, fuel = k + 1 := ⟨fuel - 1, by omega⟩
    simp [readString?, WideText.ofChars]
  | cons c cs ih =>
    have hpos := List.length_pos_of_ne_nil (writeChar_ne_nil c)
    rw [List.flatMap_cons, List.length_append] at h
    obtain ⟨fuel, rfl⟩ : ∃ k, fuel = k + 1 := ⟨fuel - 1, by omega⟩
    rw [List.flatMap_cons, List.append_assoc, readString?_writeChar, ih (by omega)]
    simp [WideText.ofChars]

theorem chars_writeString (s : WideText) :
    (writeString s).chars = '"' :: (s.chars.flatMap (writeChar false) ++ ['"']) := by
  have htext : WideText.chars (s.flatMap writePoint) = s.chars.flatMap (writeChar false) := by
    rw [WideText.chars_flatMap]
    induction s with
    | nil => rfl
    | cons p s ih =>
      cases p with
      | char c => rw [List.flatMap_cons, ih, writePoint, WideText.chars_ofChars, WideText.chars_cons, List.flatMap_cons]
      | half place => exact ih
  rw [writeString, WideText.chars_cons, WideText.chars_append, htext]
  rfl

/-! ## Texts inside a value -/

mutual

/-- The texts inside a value, keys included. -/
def texts : Json → List WideText
  | str s => [s]
  | arr items => itemTexts items
  | obj entries => entryTexts entries
  | _ => []

def itemTexts : List Json → List WideText
  | [] => []
  | item :: items => item.texts ++ itemTexts items

def entryTexts : List (WideText × Json) → List WideText
  | [] => []
  | (key, value) :: entries => key :: value.texts ++ entryTexts entries

end

theorem itemTexts_eq (items : List Json) : itemTexts items = items.flatMap texts := by
  induction items with
  | nil => rfl
  | cons item items ih => rw [itemTexts, ih, List.flatMap_cons]

theorem entryTexts_eq (entries : List (WideText × Json)) :
    entryTexts entries = entries.flatMap fun entry => entry.1 :: entry.2.texts := by
  induction entries with
  | nil => rfl
  | cons entry entries ih => rw [entryTexts, ih, List.flatMap_cons]

/-- Whether all the texts of a value have bytes. -/
def Whole (json : Json) : Prop :=
  ∀ text ∈ json.texts, IsWhole text

theorem whole_arr {items : List Json} : (arr items).Whole ↔ ∀ item ∈ items, item.Whole := by
  rw [Whole, texts, itemTexts_eq, List.forall_mem_flatMap]
  rfl

theorem whole_obj {entries : List (WideText × Json)} :
    (obj entries).Whole ↔ ∀ entry ∈ entries, IsWhole entry.1 ∧ entry.2.Whole := by
  rw [Whole, texts, entryTexts_eq, List.forall_mem_flatMap]
  simp only [List.forall_mem_cons, Whole]

/-! ## Values -/

/-- The values that can be read when `depth` more arrays and objects may be opened: they are not nested deeper, their
whole numbers keep to the digit limit, and no object has a key twice. -/
inductive Readable : Nat → Json → Prop where
  | null {depth : Nat} : Readable depth .null
  | bool {depth : Nat} (b : Bool) : Readable depth (.bool b)
  | num {depth : Nat} {n : Number} (h : CanRead n) : Readable depth (.num n)
  | str {depth : Nat} (s : WideText) : Readable depth (.str s)
  | arr {depth : Nat} {items : List Json} (h : ∀ item ∈ items, Readable depth item) : Readable (depth + 1) (.arr items)
  | obj {depth : Nat} {entries : List (WideText × Json)} (hkeys : (entries.map Prod.fst).Nodup)
      (h : ∀ entry ∈ entries, Readable depth entry.2) : Readable (depth + 1) (.obj entries)

theorem Readable.of_obj {depth : Nat} {entries : List (WideText × Json)} (h : Readable depth (.obj entries)) :
    (entries.map Prod.fst).Nodup ∧ ∀ entry ∈ entries, Readable (depth - 1) entry.2 := by
  cases h with
  | obj hkeys h => exact ⟨hkeys, h⟩

theorem Readable.of_num {depth : Nat} {n : Number} (h : Readable depth (.num n)) : CanRead n := by
  cases h with
  | num h => exact h

def pointsAt (level : Nat) (json : Json) : WideText :=
  (piecesAt level [] json).flatten

def entryPointsAt (level : Nat) (entry : WideText × Json) : WideText :=
  writeString entry.1 ++ .char ':' :: .char ' ' :: pointsAt level entry.2

theorem flatten_piecesAt (level : Nat) (lead : WideText) (json : Json) :
    (piecesAt level lead json).flatten = lead ++ pointsAt level json := by
  unfold pointsAt
  cases json with
  | arr items => cases items <;> simp [piecesAt]
  | obj entries => cases entries <;> simp [piecesAt]
  | _ => simp [piecesAt]

theorem flatten_itemPieces (level : Nat) (lead : WideText) (item : Json) (items : List Json) :
    (itemPieces level lead (item :: items)).flatten =
      lead ++ (pointsAt level item ++ items.flatMap fun item => .char ',' :: (newline level ++ pointsAt level item)) := by
  induction items generalizing lead item with
  | nil => simp [itemPieces, flatten_piecesAt]
  | cons next items ih => rw [itemPieces, List.flatten_append, ih, flatten_piecesAt]; simp

theorem flatten_entryPieces (level : Nat) (lead : WideText) (entry : WideText × Json) (entries : List (WideText × Json)) :
    (entryPieces level lead (entry :: entries)).flatten =
      lead ++ (entryPointsAt level entry ++
        entries.flatMap fun entry => .char ',' :: (newline level ++ entryPointsAt level entry)) := by
  induction entries generalizing lead entry with
  | nil => simp [entryPieces, entryPointsAt, pointsAt]
  | cons next entries ih =>
    rw [entryPieces, List.flatten_append, ih]
    simp [entryPointsAt, pointsAt]

theorem pointsAt_num (level : Nat) (n : Number) : pointsAt level (.num n) = .ofChars (writeNumber n).toList := by
  simp [pointsAt, piecesAt, writePlain]

theorem pointsAt_str (level : Nat) (s : WideText) : pointsAt level (.str s) = writeString s := by
  simp [pointsAt, piecesAt]

theorem pointsAt_arr (level : Nat) (item : Json) (items : List Json) :
    pointsAt level (.arr (item :: items)) = .char '[' :: (newline (level + 1) ++ (pointsAt (level + 1) item ++
      ((items.flatMap fun item => .char ',' :: (newline (level + 1) ++ pointsAt (level + 1) item)) ++
        (newline level ++ [.char ']'])))) := by
  rw [pointsAt, piecesAt]
  simp [flatten_itemPieces]

theorem pointsAt_obj (level : Nat) (entry : WideText × Json) (entries : List (WideText × Json)) :
    pointsAt level (.obj (entry :: entries)) = .char '\x7b' :: (newline (level + 1) ++ (entryPointsAt (level + 1) entry ++
      ((entries.flatMap fun entry => .char ',' :: (newline (level + 1) ++ entryPointsAt (level + 1) entry)) ++
        (newline level ++ [.char '\x7d'])))) := by
  rw [pointsAt, piecesAt]
  simp [flatten_entryPieces]

def charsAt (level : Nat) (json : Json) : List Char :=
  (pointsAt level json).chars

def entryCharsAt (level : Nat) (entry : WideText × Json) : List Char :=
  (writeString entry.1).chars ++ ':' :: ' ' :: charsAt level entry.2

def breakAt (level : Nat) : List Char :=
  '\n' :: List.replicate (4 * level) ' '

@[simp] theorem chars_newline (level : Nat) : (newline level).chars = breakAt level :=
  WideText.chars_ofChars _

theorem chars_entryPointsAt (level : Nat) (entry : WideText × Json) :
    (entryPointsAt level entry).chars = entryCharsAt level entry := by
  simp [entryPointsAt, entryCharsAt, charsAt]

theorem charsAt_num (level : Nat) (n : Number) : charsAt level (.num n) = (writeNumber n).toList := by
  rw [charsAt, pointsAt_num, WideText.chars_ofChars]

theorem charsAt_str (level : Nat) (s : WideText) :
    charsAt level (.str s) = '"' :: (s.chars.flatMap (writeChar false) ++ ['"']) := by
  rw [charsAt, pointsAt_str, chars_writeString]

theorem charsAt_arr (level : Nat) (item : Json) (items : List Json) :
    charsAt level (.arr (item :: items)) = '[' :: (breakAt (level + 1) ++ (charsAt (level + 1) item ++
      ((items.flatMap fun item => ',' :: (breakAt (level + 1) ++ charsAt (level + 1) item)) ++
        (breakAt level ++ [']'])))) := by
  rw [charsAt, pointsAt_arr]
  simp [charsAt, WideText.chars_flatMap]
  rfl

theorem charsAt_obj (level : Nat) (entry : WideText × Json) (entries : List (WideText × Json)) :
    charsAt level (.obj (entry :: entries)) = '\x7b' :: (breakAt (level + 1) ++ (entryCharsAt (level + 1) entry ++
      ((entries.flatMap fun entry => ',' :: (breakAt (level + 1) ++ entryCharsAt (level + 1) entry)) ++
        (breakAt level ++ ['\x7d'])))) := by
  rw [charsAt, pointsAt_obj]
  simp [WideText.chars_flatMap, chars_entryPointsAt]
  rfl

theorem skipSpace_breakAt (level : Nat) (cs : List Char) : skipSpace (breakAt level ++ cs) = skipSpace cs := by
  have hspace : ∀ c ∈ breakAt level, isSpace c = true := by
    rw [breakAt, List.forall_mem_cons]
    refine ⟨rfl, ?_⟩
    intro c hc
    rw [List.eq_of_mem_replicate hc]
    rfl
  rw [skipSpace, List.dropWhile_append_of_pos hspace, ← skipSpace]

theorem skipSpace_cons {c : Char} (h : isSpace c = false) (cs : List Char) : skipSpace (c :: cs) = c :: cs := by
  simp [skipSpace, h]

theorem endsNumeral_breakAt (level : Nat) (cs : List Char) : EndsNumeral (breakAt level ++ cs) := by
  intro c hc
  obtain rfl := Option.some.inj hc
  decide

theorem endsNumeral_comma (cs : List Char) : EndsNumeral (',' :: cs) := by
  intro c hc
  obtain rfl := Option.some.inj hc
  decide

theorem writeNumber_head {n : Number} (h : CanRead n) :
    ∃ c cs, (writeNumber n).toList = c :: cs ∧ (c.isDigit = true ∨ c = '-' ∨ c = 'N' ∨ c = 'I') := by
  by_cases hnan : n = .float .nan
  · subst hnan
    exact ⟨'N', ['a', 'N'], rfl, .inr (.inr (.inl rfl))⟩
  by_cases hinfinite : ∃ negative, n = .float (.infinite negative)
  · obtain ⟨negative, rfl⟩ := hinfinite
    cases negative
    · exact ⟨'I', "nfinity".toList, rfl, .inr (.inr (.inr rfl))⟩
    · exact ⟨'-', "Infinity".toList, rfl, .inr (.inl rfl)⟩
  obtain ⟨sign, c, cs, htext, hsign, hc⟩ := writeNumber_starts h hnan fun negative he => hinfinite ⟨negative, he⟩
  rcases hsign with rfl | rfl
  · exact ⟨c, cs, htext, .inl hc⟩
  · exact ⟨'-', c :: cs, htext, .inr (.inl rfl)⟩

/-- What is written for a value starts neither with white space nor with a closing bracket. -/
theorem charsAt_starts {depth : Nat} {json : Json} (h : Readable depth json) (level : Nat) :
    ∃ c cs, charsAt level json = c :: cs ∧ isSpace c = false ∧ c ≠ ']' := by
  cases h with
  | null => exact ⟨_, _, rfl, rfl, by decide⟩
  | bool b => cases b <;> exact ⟨_, _, rfl, rfl, by decide⟩
  | @num _ n h =>
    rw [charsAt_num]
    obtain ⟨c, cs, hcs, hc⟩ := writeNumber_head h
    refine ⟨c, cs, hcs, ?_⟩
    rcases hc with hdigit | rfl | rfl | rfl
    · refine ⟨?_, ?_⟩
      · simp only [isSpace, Bool.or_eq_false_iff, beq_eq_false_iff_ne]
        refine ⟨⟨⟨?_, ?_⟩, ?_⟩, ?_⟩ <;> rintro rfl <;> exact absurd hdigit (by decide)
      · rintro rfl
        exact absurd hdigit (by decide)
    · decide
    · decide
    · decide
  | str s => exact ⟨_, _, charsAt_str level s, rfl, by decide⟩
  | @arr _ items =>
    cases items with
    | nil => exact ⟨_, _, rfl, rfl, by decide⟩
    | cons item items => exact ⟨_, _, charsAt_arr level item items, rfl, by decide⟩
  | @obj _ entries =>
    cases entries with
    | nil => exact ⟨_, _, rfl, rfl, by decide⟩
    | cons entry entries => exact ⟨_, _, charsAt_obj level entry entries, rfl, by decide⟩

/-- A value is read from what was written for it, which does not start with white space. -/
structure ReadsAt (depth level : Nat) (json : Json) : Prop where
  skipSpace : ∀ rest, skipSpace (charsAt level json ++ rest) = charsAt level json ++ rest
  reads : ∀ fuel rest, (charsAt level json).length ≤ fuel → EndsNumeral rest →
    readValue fuel depth (charsAt level json ++ rest) = .ok (json, rest)

theorem readItems_close {fuel depth : Nat} {cs more rest : List Char} {item : Json}
    (hread : readValue fuel depth (skipSpace cs) = .ok (item, more)) (hclose : skipSpace more = ']' :: rest) :
    readItems (fuel + 1) depth cs = .ok ([item], rest) := by
  rw [readItems, hread]
  dsimp only [bind, Except.bind]
  rw [hclose]
  rfl

theorem readItems_comma {fuel depth : Nat} {cs more after rest : List Char} {item : Json} {items : List Json}
    (hread : readValue fuel depth (skipSpace cs) = .ok (item, more)) (hcomma : skipSpace more = ',' :: after)
    (hnext : readItems fuel depth after = .ok (items, rest)) :
    readItems (fuel + 1) depth cs = .ok (item :: items, rest) := by
  rw [readItems, hread]
  dsimp only [bind, Except.bind]
  simp only [hcomma, hnext]
  rfl

/-- Items are read one after another. Every step takes one from the fuel, which the item itself pays for. -/
theorem readItems_charsAt {depth level outer : Nat} {item : Json} {items : List Json}
    (hreads : ∀ json ∈ item :: items, ReadsAt depth level json) {cs rest : List Char} {fuel : Nat}
    (hcs : skipSpace cs = charsAt level item ++
      ((items.flatMap fun item => ',' :: (breakAt level ++ charsAt level item)) ++ (breakAt outer ++ ']' :: rest)))
    (hfuel : (charsAt level item).length +
      (items.flatMap fun item => ',' :: (breakAt level ++ charsAt level item)).length < fuel) :
    readItems fuel depth cs = .ok (item :: items, rest) := by
  induction items generalizing item cs fuel with
  | nil =>
    obtain ⟨fuel, rfl⟩ : ∃ k, fuel = k + 1 := ⟨fuel - 1, by omega⟩
    have hread := (hreads item (by simp)).reads fuel
    exact readItems_close ((congrArg _ hcs).trans (hread _ (by omega) (endsNumeral_breakAt outer _)))
      ((skipSpace_breakAt outer _).trans (skipSpace_cons rfl _))
  | cons next items ih =>
    obtain ⟨fuel, rfl⟩ : ∃ k, fuel = k + 1 := ⟨fuel - 1, by omega⟩
    rw [List.flatMap_cons, List.append_assoc, List.cons_append, List.append_assoc] at hcs
    rw [List.flatMap_cons, List.length_append, List.length_cons, List.length_append] at hfuel
    have hread := (hreads item (by simp)).reads fuel
    refine readItems_comma ((congrArg _ hcs).trans (hread _ (by omega) (endsNumeral_comma _))) (skipSpace_cons rfl _)
      (ih (fun json hjson => hreads json (List.mem_cons_of_mem _ hjson)) ?_ (by omega))
    rw [skipSpace_breakAt, (hreads next (by simp)).skipSpace]

theorem setEntry_append {key : WideText} {done : List (WideText × Json)} (h : key ∉ done.map Prod.fst) (value : Json) :
    setEntry key value done = done ++ [(key, value)] := by
  induction done with
  | nil => rfl
  | cons entry done ih =>
    rw [List.map_cons, List.mem_cons, not_or] at h
    rw [setEntry, if_neg (Ne.symm h.1), ih h.2, List.cons_append]

theorem not_mem_done {entry : WideText × Json} {done entries : List (WideText × Json)}
    (h : ((done ++ entry :: entries).map Prod.fst).Nodup) : entry.1 ∉ done.map Prod.fst := by
  intro hmem
  rw [List.map_append, List.nodup_append] at h
  exact h.2.2 _ hmem _ (by simp) rfl

theorem readString?_writeString {fuel : Nat} {key : WideText} (hkey : IsWhole key)
    (h : (writeString key).chars.length ≤ fuel) (rest : List Char) :
    readString? fuel [] (key.chars.flatMap (writeChar false) ++ '"' :: rest) = some (key, rest) := by
  rw [chars_writeString, List.length_cons, List.length_append] at h
  rw [readString?_flatMap _ (by omega), hkey.ofChars_chars]
  rfl

/-- One entry of an object is read, whatever comes after it. -/
theorem readEntries_entry {fuel depth level : Nat} {entry : WideText × Json} {done : List (WideText × Json)}
    {cs more : List Char} (hreads : IsWhole entry.1 ∧ ReadsAt depth level entry.2) (hkey : entry.1 ∉ done.map Prod.fst)
    (hcs : skipSpace cs = entryCharsAt level entry ++ more) (hfuel : (entryCharsAt level entry).length ≤ fuel)
    (hmore : EndsNumeral more) :
    (∀ rest, skipSpace more = '\x7d' :: rest → readEntries (fuel + 1) depth done cs = .ok (done ++ [entry], rest)) ∧
      ∀ after, skipSpace more = ',' :: after →
        readEntries (fuel + 1) depth done cs = readEntries fuel depth (done ++ [entry]) after := by
  simp only [entryCharsAt, List.length_append, List.length_cons] at hfuel
  rw [entryCharsAt, chars_writeString] at hcs
  simp only [List.cons_append, List.append_assoc, List.nil_append] at hcs
  have hvalue : readValue fuel depth (skipSpace (' ' :: (charsAt level entry.2 ++ more))) = .ok (entry.2, more) :=
    (congrArg _ (hreads.2.skipSpace more)).trans (hreads.2.reads fuel more (by omega) hmore)
  have hstring := @readString?_writeString fuel entry.1 hreads.1 (by omega)
  rw [readEntries, ← setEntry_append hkey]
  refine ⟨?_, ?_⟩
  · intro rest hclose
    simp only [hcs, hstring, attempt, bind, Except.bind, @skipSpace_cons ':' rfl, hvalue, hclose]
    rfl
  · intro after hcomma
    simp only [hcs, hstring, attempt, bind, Except.bind, @skipSpace_cons ':' rfl, hvalue, hcomma]

theorem readEntries_entryCharsAt {depth level outer : Nat} {entry : WideText × Json}
    {done entries : List (WideText × Json)}
    (hreads : ∀ entry' ∈ entry :: entries, IsWhole entry'.1 ∧ ReadsAt depth level entry'.2)
    (hkeys : ((done ++ entry :: entries).map Prod.fst).Nodup) {cs rest : List Char} {fuel : Nat}
    (hcs : skipSpace cs = entryCharsAt level entry ++
      ((entries.flatMap fun entry => ',' :: (breakAt level ++ entryCharsAt level entry)) ++
        (breakAt outer ++ '\x7d' :: rest)))
    (hfuel : (entryCharsAt level entry).length +
      (entries.flatMap fun entry => ',' :: (breakAt level ++ entryCharsAt level entry)).length < fuel) :
    readEntries fuel depth done cs = .ok (done ++ entry :: entries, rest) := by
  induction entries generalizing entry done cs fuel with
  | nil =>
    obtain ⟨fuel, rfl⟩ : ∃ k, fuel = k + 1 := ⟨fuel - 1, by omega⟩
    have hlength : (entryCharsAt level entry).length ≤ fuel := by omega
    have hentry := readEntries_entry (hreads entry (by simp)) (not_mem_done hkeys) hcs hlength
      (endsNumeral_breakAt outer _)
    exact hentry.1 rest ((skipSpace_breakAt outer _).trans (skipSpace_cons rfl _))
  | cons next entries ih =>
    obtain ⟨fuel, rfl⟩ : ∃ k, fuel = k + 1 := ⟨fuel - 1, by omega⟩
    rw [List.flatMap_cons, List.append_assoc, List.cons_append, List.append_assoc] at hcs
    rw [List.flatMap_cons, List.length_append, List.length_cons, List.length_append] at hfuel
    have hlength : (entryCharsAt level entry).length ≤ fuel := by omega
    have hentry := readEntries_entry (hreads entry (by simp)) (not_mem_done hkeys) hcs hlength (endsNumeral_comma _)
    rw [hentry.2 _ (skipSpace_cons rfl _), List.append_cons done entry (next :: entries)]
    refine ih (fun entry' hentry' => hreads entry' (List.mem_cons_of_mem _ hentry')) ?_ ?_ ?_
    · rwa [List.append_cons] at hkeys
    · rw [skipSpace_breakAt, entryCharsAt, chars_writeString, List.cons_append, List.cons_append, skipSpace_cons rfl]
    · omega

theorem readWord_append (word : String) (value : Json) (rest : List Char) :
    readWord word value (word.toList ++ rest) = .ok (value, rest) := by
  have hdrop : (word.toList ++ rest).drop word.length = rest := by
    rw [← String.length_toList, List.drop_left]
  simp [readWord, dropWord?, attempt, hdrop]

/-- A numeral is read as a number. -/
theorem readValue_number {fuel depth : Nat} {n : Number} (h : CanRead n) {rest : List Char} (hr : EndsNumeral rest) :
    readValue (fuel + 1) depth ((writeNumber n).toList ++ rest) = .ok (.num n, rest) := by
  by_cases hnan : n = .float .nan
  · subst hnan
    exact readWord_append "NaN" _ rest
  by_cases hinfinite : ∃ negative, n = .float (.infinite negative)
  · obtain ⟨negative, rfl⟩ := hinfinite
    cases negative
    · exact readWord_append "Infinity" _ rest
    · exact readWord_append "-Infinity" _ rest
  have hfinite : ∀ negative, n ≠ .float (.infinite negative) := fun negative he => hinfinite ⟨negative, he⟩
  have hread := readNumber_writeNumber h hnan hfinite hr
  obtain ⟨sign, c, cs, htext, hsign, hc⟩ := writeNumber_starts h hnan hfinite
  rw [htext] at hread ⊢
  -- What starts with a digit, or with a digit after a minus sign, is no other kind of value.
  have hne {d : Char} (hd : d.isDigit = false) : c ≠ d := by
    rintro rfl
    rw [hc] at hd
    cases hd
  rcases hsign with rfl | rfl
  · rw [List.nil_append, List.cons_append] at hread ⊢
    rw [readValue, hread]
    · rfl
    all_goals
      intro tail he
      exact hne (by decide) (List.cons.inj he).1
  · rw [List.singleton_append, List.cons_append, List.cons_append] at hread ⊢
    rw [readValue, hread]
    · rfl
    all_goals simp [@hne 'I' (by decide)]

theorem readValue_bracket {fuel depth : Nat} {cs rest : List Char} {items : List Json}
    (hread : readItems fuel depth (skipSpace cs) = .ok (items, rest)) (hopen : (skipSpace cs).head? ≠ some ']') :
    readValue (fuel + 1) (depth + 1) ('[' :: cs) = .ok (.arr items, rest) := by
  rw [readValue]
  split
  · rename_i he
    rw [he] at hopen
    exact absurd rfl hopen
  · rw [hread]
    rfl

theorem readValue_brace {fuel depth : Nat} {cs rest : List Char} {entries : List (WideText × Json)}
    (hread : readEntries fuel depth [] (skipSpace cs) = .ok (entries, rest))
    (hopen : (skipSpace cs).head? ≠ some '\x7d') :
    readValue (fuel + 1) (depth + 1) ('\x7b' :: cs) = .ok (.obj entries, rest) := by
  rw [readValue]
  split
  · rename_i he
    rw [he] at hopen
    exact absurd rfl hopen
  · rw [hread]
    rfl

theorem ReadsAt.of_readable {depth level : Nat} {json : Json} (h : Readable depth json)
    (hreads : ∀ fuel rest, (charsAt level json).length ≤ fuel + 1 → EndsNumeral rest →
      readValue (fuel + 1) depth (charsAt level json ++ rest) = .ok (json, rest)) : ReadsAt depth level json := by
  obtain ⟨c, tail, htext, hspace, -⟩ := charsAt_starts h level
  refine ⟨?_, ?_⟩
  · intro rest
    rw [htext, List.cons_append, skipSpace_cons hspace]
  · intro fuel rest hfuel hr
    cases fuel with
    | zero =>
      rw [htext] at hfuel
      cases hfuel
    | succ fuel => exact hreads fuel rest hfuel hr

/-- Every value that can be read, and has bytes, is read back from what was written for it. The induction is on how it is
built, and an item is written one level deeper and may be nested one level less. -/
theorem readsAt_of_readable {depth : Nat} {json : Json} (h : Readable depth json) (hw : json.Whole) (level : Nat) :
    ReadsAt depth level json := by
  induction h generalizing level with
  | null => exact .of_readable .null fun fuel rest _ _ => readWord_append "null" _ rest
  | bool b =>
    refine .of_readable (.bool b) fun fuel rest _ _ => ?_
    cases b
    · exact readWord_append "false" _ rest
    · exact readWord_append "true" _ rest
  | num h =>
    refine .of_readable (.num h) fun fuel rest _ hr => ?_
    rw [charsAt_num]
    exact readValue_number h hr
  | str s =>
    refine .of_readable (.str s) fun fuel rest hfuel _ => ?_
    rw [charsAt_str, List.length_cons, List.length_append] at hfuel
    rw [charsAt_str, List.cons_append, List.append_assoc, List.singleton_append, readValue]
    rw [readString?_flatMap _ (by simp only [List.length_singleton] at hfuel; omega),
      (hw s (List.mem_singleton_self s)).ofChars_chars]
    rfl
  | @arr depth items h ih =>
    have hreads (item : Json) (hitem : item ∈ items) := ih item hitem (whole_arr.mp hw item hitem) (level + 1)
    refine .of_readable (.arr h) fun fuel rest hfuel _ => ?_
    cases items with
    | nil => rfl
    | cons item items =>
      obtain ⟨c, tail, htext, hspace, hclose⟩ := charsAt_starts (h item (by simp)) (level + 1)
      rw [charsAt_arr] at hfuel ⊢
      simp only [List.length_cons, List.length_append] at hfuel
      simp only [List.cons_append, List.append_assoc, List.nil_append]
      -- White space is skipped here, and once more before the first item.
      refine readValue_bracket ?_ ?_
      · refine @readItems_charsAt depth (level + 1) level _ _ hreads _ _ _ ?_ ?_
        · rw [skipSpace_breakAt, (hreads item (by simp)).skipSpace, (hreads item (by simp)).skipSpace]
        · omega
      · rw [skipSpace_breakAt, (hreads item (by simp)).skipSpace, htext]
        intro he
        exact hclose (Option.some.inj he)
  | @obj depth entries hkeys h ih =>
    have hreads (entry : WideText × Json) (hentry : entry ∈ entries) :=
      And.intro (whole_obj.mp hw entry hentry).1 (ih entry hentry (whole_obj.mp hw entry hentry).2 (level + 1))
    refine .of_readable (.obj hkeys h) fun fuel rest hfuel _ => ?_
    cases entries with
    | nil => rfl
    | cons entry entries =>
      have hspace (more : List Char) : skipSpace (entryCharsAt (level + 1) entry ++ more) =
          entryCharsAt (level + 1) entry ++ more := by
        rw [entryCharsAt, chars_writeString, List.cons_append, List.cons_append, skipSpace_cons rfl]
      rw [charsAt_obj] at hfuel ⊢
      simp only [List.length_cons, List.length_append] at hfuel
      simp only [List.cons_append, List.append_assoc, List.nil_append]
      refine readValue_brace ?_ ?_
      · refine @readEntries_entryCharsAt depth (level + 1) level _ [] _ hreads hkeys _ _ _ ?_ ?_
        · rw [skipSpace_breakAt, hspace, hspace]
        · omega
      · rw [skipSpace_breakAt, hspace, entryCharsAt, chars_writeString]
        intro he
        exact absurd (Option.some.inj he) (by decide)

/-! ## What can be read -/

theorem map_fst_setEntry {key : WideText} {done : List (WideText × Json)} (h : key ∈ done.map Prod.fst) (value : Json) :
    (setEntry key value done).map Prod.fst = done.map Prod.fst := by
  induction done with
  | nil => cases h
  | cons entry done ih =>
    rw [setEntry]
    split
    · rename_i he
      rw [List.map_cons, List.map_cons, he]
    · rename_i hne
      rw [List.map_cons, List.mem_cons] at h
      rw [List.map_cons, List.map_cons, ih (h.resolve_left fun he => hne he.symm)]

theorem nodup_setEntry {done : List (WideText × Json)} (h : (done.map Prod.fst).Nodup) (key : WideText) (value : Json) :
    ((setEntry key value done).map Prod.fst).Nodup := by
  by_cases hmem : key ∈ done.map Prod.fst
  · rwa [map_fst_setEntry hmem]
  · rw [setEntry_append hmem, List.map_append, List.map_singleton]
    exact List.nodup_append.mpr ⟨h, by simp, fun a ha b hb he => hmem (by simp_all)⟩

theorem forall_mem_setEntry {p : Json → Prop} {done : List (WideText × Json)} (h : ∀ entry ∈ done, p entry.2)
    (key : WideText) {value : Json} (hvalue : p value) : ∀ entry ∈ setEntry key value done, p entry.2 := by
  induction done with
  | nil => simpa [setEntry] using hvalue
  | cons entry done ih =>
    rw [List.forall_mem_cons] at h
    rw [setEntry]
    split
    · exact List.forall_mem_cons.mpr ⟨hvalue, h.2⟩
    · exact List.forall_mem_cons.mpr ⟨h.1, ih h.2⟩

theorem of_map_eq_ok {α β : Type} {first : Attempt α} {f : α → β} {b : β} (h : first.map f = .ok b) :
    ∃ a, first = .ok a ∧ f a = b := by
  cases first with
  | error fault => cases h
  | ok a => exact ⟨a, rfl, Except.ok.inj h⟩

theorem of_readWord {word : String} {value json : Json} {cs rest : List Char}
    (h : readWord word value cs = .ok (json, rest)) : json = value := by
  rw [readWord] at h
  cases hdrop : dropWord? word cs with
  | none =>
    rw [hdrop] at h
    cases h
  | some more =>
    rw [hdrop] at h
    cases h
    rfl

/-- The values that a reader with some fuel gives are readable ones. -/
structure GivesReadable (fuel : Nat) : Prop where
  value : ∀ {depth cs json rest}, readValue fuel depth cs = .ok (json, rest) → Readable depth json
  items : ∀ {depth cs items rest}, readItems fuel depth cs = .ok (items, rest) → ∀ item ∈ items, Readable depth item
  entries : ∀ {depth done cs entries rest}, (done.map Prod.fst).Nodup → (∀ entry ∈ done, Readable depth entry.2) →
    readEntries fuel depth done cs = .ok (entries, rest) →
    (entries.map Prod.fst).Nodup ∧ ∀ entry ∈ entries, Readable depth entry.2

theorem GivesReadable.readValue_succ {fuel : Nat} (h : GivesReadable fuel) {depth : Nat} {cs rest : List Char}
    {json : Json} (hread : readValue (fuel + 1) depth cs = .ok (json, rest)) : Readable depth json := by
  rw [readValue.eq_def] at hread
  dsimp only at hread
  split at hread
  · obtain ⟨text, -, he⟩ := of_map_eq_ok hread
    rw [← (Prod.mk.inj he).1]
    exact .str text.1
  · split at hread
    · cases hread
    · split at hread
      · cases hread
        exact .arr (by simp)
      · obtain ⟨items, hitems, he⟩ := of_map_eq_ok hread
        rw [← (Prod.mk.inj he).1]
        exact .arr (h.items hitems)
  · split at hread
    · cases hread
    · split at hread
      · cases hread
        exact .obj (by simp) (by simp)
      · obtain ⟨entries, hentries, he⟩ := of_map_eq_ok hread
        have hall := h.entries (by simp) (by simp) hentries
        rw [← (Prod.mk.inj he).1]
        exact .obj hall.1 hall.2
  · exact of_readWord hread ▸ .null
  · exact of_readWord hread ▸ .bool true
  · exact of_readWord hread ▸ .bool false
  · exact of_readWord hread ▸ .num True.intro
  · exact of_readWord hread ▸ .num True.intro
  · exact of_readWord hread ▸ .num True.intro
  · obtain ⟨n, hn, he⟩ := of_map_eq_ok hread
    rw [← (Prod.mk.inj he).1]
    exact .num (canRead_of_readNumber hn)

theorem GivesReadable.readItems_succ {fuel : Nat} (h : GivesReadable fuel) {depth : Nat} {cs rest : List Char}
    {items : List Json} (hread : readItems (fuel + 1) depth cs = .ok (items, rest)) :
    ∀ item ∈ items, Readable depth item := by
  rw [readItems] at hread
  obtain ⟨first, hfirst, hread⟩ := of_bind_eq_ok hread
  have hitem := h.value hfirst
  dsimp only at hread
  split at hread
  · cases hread
    simpa using hitem
  · obtain ⟨others, hothers, hread⟩ := of_bind_eq_ok hread
    cases hread
    exact List.forall_mem_cons.mpr ⟨hitem, h.items hothers⟩
  · cases hread

theorem GivesReadable.readEntries_succ {fuel : Nat} (h : GivesReadable fuel) {depth : Nat} {cs rest : List Char}
    {done entries : List (WideText × Json)} (hkeys : (done.map Prod.fst).Nodup)
    (hdone : ∀ entry ∈ done, Readable depth entry.2)
    (hread : readEntries (fuel + 1) depth done cs = .ok (entries, rest)) :
    (entries.map Prod.fst).Nodup ∧ ∀ entry ∈ entries, Readable depth entry.2 := by
  rw [readEntries] at hread
  split at hread
  · obtain ⟨key, -, hread⟩ := of_bind_eq_ok hread
    dsimp only at hread
    split at hread
    · obtain ⟨value, hvalue, hread⟩ := of_bind_eq_ok hread
      have hkeys' := nodup_setEntry hkeys key.1 value.1
      have hdone' := forall_mem_setEntry hdone key.1 (h.value hvalue)
      split at hread
      · cases hread
        exact ⟨hkeys', hdone'⟩
      · exact h.entries hkeys' hdone' hread
      · cases hread
    · cases hread
  · cases hread

theorem givesReadable (fuel : Nat) : GivesReadable fuel := by
  induction fuel with
  | zero =>
    refine ⟨?_, ?_, ?_⟩
    · intro _ _ _ _ hread
      cases hread
    · intro _ _ _ _ hread
      cases hread
    · intro _ _ _ _ _ _ _ hread
      cases hread
  | succ fuel ih => exact ⟨ih.readValue_succ, ih.readItems_succ, ih.readEntries_succ⟩

/-- Every value that is read is a readable one. -/
theorem readable_of_read {depthLimit : Nat} {text : String} {json : Json} (h : read depthLimit text = .ok json) :
    Readable depthLimit json := by
  rw [read] at h
  obtain ⟨value, hvalue, h⟩ := of_bind_eq_ok h
  dsimp only at h
  split at h
  · cases h
    exact (givesReadable _).value hvalue
  · cases h

/-- Every readable value that has bytes is read back from its pieces. -/
theorem read_pieces {depthLimit : Nat} {json : Json} (h : Readable depthLimit json) (hw : json.Whole) :
    read depthLimit (String.ofList (WideText.chars json.pieces.flatten)) = .ok json := by
  have hreads := readsAt_of_readable h hw 0
  have hskip := hreads.skipSpace []
  have hvalue := hreads.reads (2 * (charsAt 0 json).length + 2) [] (by omega) (by intro c hc; cases hc)
  rw [List.append_nil] at hskip hvalue
  rw [read, pieces, ← pointsAt, ← charsAt, String.toList_ofList, hskip]
  dsimp only
  rw [hvalue]
  rfl

end Json

end PointerScript
