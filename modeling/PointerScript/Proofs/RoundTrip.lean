import PointerScript.Proofs.Number.Order
import PointerScript.Proofs.Relisting

/-! Listing a program and compiling the listing. A program without jumps comes back from its source text, number for
number by value, if what it holds can be written down: literals that floating point can hold, times that are not
negative, and messages that are one neat line. -/

namespace PointerScript

namespace Number

/-- Two numbers have the same value if they compare alike with all others; NaN has the value of NaN alone. -/
def SameValue (v w : Number) : Prop :=
  v.extent? = w.extent?

/-- A literal that floating point can hold is read back from its text with its value. -/
theorem read_exact {v : Number} (h : v.isExact = true) :
    ∃ x, Operand.read v.text = .literal (.float x) ∧ v.SameValue (.float x) := by
  cases v with
  | float x => exact ⟨x, Operand.read_float x, rfl⟩
  | int n =>
    obtain ⟨x, hread, hquanta⟩ := readBinary64?_intChars (of_decide_eq_true h)
    have htext : (int n).text.toList = intChars n := String.toList_ofList
    have hblank : ∀ c ∈ (int n).text.toList, Text.isBlank c = false := by
      rw [htext]
      exact fun c hc => ((intChars_unblank n).2 c hc).1
    refine ⟨x, by rw [Operand.read_unblank hblank, htext, hread], ?_⟩
    cases x with
    | nan => exact absurd hquanta.symm (Option.some_ne_none _)
    | infinite negative => exact absurd hquanta.symm (Option.some_ne_none _)
    | finite negative rank =>
      have hvalue : Binary64.signed negative (Binary64.quantaOfRank rank) = n * Binary64.unit := Option.some.inj hquanta
      rw [SameValue, extent?_finite, hvalue]
      rfl

/-- A time that is not negative keeps its value in a listing. -/
theorem sameValue_listedTime {time : Binary64} (h : (int 0).le (float time) = true) :
    (float time).SameValue (.float time.listedTime) := by
  rw [Binary64.listedTime]
  split
  · rfl
  · rename_i hpos
    obtain ⟨_, b, _, hb⟩ := extents_of_le h
    rw [le_iff extent?_zero hb] at h
    rw [lt_iff extent?_zero hb] at hpos
    have hzero : (float (.zero false)).extent? = some (0, 0) := by decide +kernel
    rw [SameValue, hb, hzero, Option.some.injEq, Prod.ext_iff]
    dsimp only
    omega

end Number

namespace Instruction

/-- Whether an instruction can be listed and compiled without loss. -/
def isLossless : Instruction → Bool
  | move (.literal x) (.operand (.literal y)) (.float time)
  | moveRel (.literal x) (.operand (.literal y)) (.float time) =>
    x.isExact && y.isExact && (Number.int 0).le (.float time)
  | wait (.literal t) => t.isExact
  | print message => Text.IsPhrase message
  | inst => inst = setup || inst ∈ Listing.bare

/-- Instructions that are the same up to the way in which their numbers are given. -/
inductive SameValues : Instruction → Instruction → Prop
  | refl (inst : Instruction) : SameValues inst inst
  | wait {t t' : Number} (h : t.SameValue t') : SameValues (wait (.literal t)) (wait (.literal t'))
  | movement {word : String} {make : Operand → Argument → Number → Instruction} (h : Movement word make)
      {x x' y y' time time' : Number} (hx : x.SameValue x') (hy : y.SameValue y') (ht : time.SameValue time') :
      SameValues (make (.literal x) (.operand (.literal y)) time) (make (.literal x') (.operand (.literal y')) time')

end Instruction

namespace Listing

variable (m : Machine)

/-- What is listed without loss comes back with its values, and goes to no label. -/
theorem relists_lossless {inst : Instruction} (h : inst.isLossless = true) (hs : inst ≠ .setup) :
    ∃ again, (again.label? = none ∧ inst.SameValues again) ∧ Relists (readerOf m) inst again := by
  have hmovement {word : String} {make : Operand → Argument → Number → Instruction} (hm : Movement word make)
      {x y : Number} {time : Binary64} (hx : x.isExact = true) (hy : y.isExact = true)
      (ht : (Number.int 0).le (.float time) = true) :
      ∃ again, (again.label? = none ∧ (make (.literal x) (.operand (.literal y)) (.float time)).SameValues again) ∧
        Relists (readerOf m) (make (.literal x) (.operand (.literal y)) (.float time)) again := by
    have hlabel (o : Operand) (a : Argument) (t : Number) : (make o a t).label? = none := by cases hm <;> rfl
    have hrelists := relists_movement m hm hx hy time
    obtain ⟨x', hreadx, hvx⟩ := Number.read_exact hx
    obtain ⟨y', hready, hvy⟩ := Number.read_exact hy
    rw [hreadx, hready] at hrelists
    exact ⟨_, ⟨hlabel _ _ _, .movement hm hvx hvy (Number.sameValue_listedTime ht)⟩, hrelists⟩
  unfold Instruction.isLossless at h
  split at h
  · simp only [Bool.and_eq_true] at h
    exact hmovement .move h.1.1 h.1.2 h.2
  · simp only [Bool.and_eq_true] at h
    exact hmovement .moveRel h.1.1 h.1.2 h.2
  · obtain ⟨t', hread, hv⟩ := Number.read_exact h
    exact ⟨_, ⟨rfl, .wait hv⟩, hread ▸ relists_wait m h⟩
  · exact ⟨_, ⟨rfl, .refl _⟩, relists_print m (of_decide_eq_true h)⟩
  · rw [Bool.or_eq_true, decide_eq_true_eq, decide_eq_true_eq] at h
    have hbare := h.resolve_left hs
    have hlabel : ∀ other ∈ bare, other.label? = none := by decide
    exact ⟨_, ⟨hlabel _ hbare, .refl _⟩, relists_bare m hbare⟩

end Listing

/-- Listing a program and compiling its source text gives the initial instructions and then the program without what
sets up, each instruction with the same values. -/
theorem listing_compiles_back {program : List Instruction} (h : ∀ inst ∈ program, inst.isLossless = true)
    (m : Machine) (now : Moment) (safe : Bool) :
    ∃ text again code, Listing.source (Listing.readerOf m) now program = (.ok text, #[]) ∧
      (compile safe text).1 = .program again ∧ again.toList = Standard.initial safe ++ code ∧
      List.Forall₂ Instruction.SameValues (program.filter (· ≠ .setup)) code := by
  obtain ⟨texts, code, hlines, hyields, hcode⟩ := @Listing.lines_relisted (Listing.readerOf m)
    (fun inst again => again.label? = none ∧ inst.SameValues again) program fun inst hi hs =>
      Listing.relists_lossless m (h inst hi) hs
  have hback : List.Forall₂ (fun again inst => again.label? = none ∧ inst.SameValues again) code
      (program.filter (· ≠ .setup)) := hcode.flip
  obtain ⟨hlabels, hsame⟩ := (List.forall₂_and_left code _).mp hback
  refine ⟨"\n".intercalate (Listing.header now ++ texts), (Standard.initial safe ++ code).toArray, code, ?_, ?_, rfl,
    hsame.flip⟩
  · rw [Listing.source, hlines]
  · exact (Listing.compile_lines hyields now safe).mpr ⟨hlabels, rfl⟩

/-- A program with whole numbers, a fraction, an infinite time, NaN, a message of two words, and setting up in its
midst. -/
theorem mixed_listing_compiles_back :
    let half := Decimal.nearest false ⟨5, -1⟩
    let program : List Instruction := [.move (.literal (.int 9007199254740992)) (.operand (.literal (.float half)))
        (.float (.infinite false)), .setup, .moveRel (.literal (.float .nan)) (.operand (.literal (.int (-7))))
        (.float (.zero true)), .pause, .wait (.literal (.float half)), .print "two words", .goBack]
    (∀ inst ∈ program, inst.isLossless = true) ∧
    ∃ text again code, Listing.source (Listing.readerOf {}) {} program = (.ok text, #[]) ∧
      (compile false text).1 = .program again ∧ again.toList = Standard.initial false ++ code ∧
      List.Forall₂ Instruction.SameValues (program.filter (· ≠ .setup)) code := by
  intro half program
  have hlossless : ∀ inst ∈ program, inst.isLossless = true := by decide +kernel
  exact ⟨hlossless, listing_compiles_back hlossless {} {} false⟩

end PointerScript
