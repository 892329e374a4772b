import PointerScript.Proofs.Linking
import PointerScript.Proofs.Recorded.Clicks
import PointerScript.Proofs.Relisting
import PointerScript.Session.RecordingRun

/-! What a recording sends. However the user presses the buttons, a recording holds waits, movements between
literals and clicks only; so the script that it sends, if it sends one, defines no label and compiles. -/

namespace PointerScript

namespace Instruction

/-- Whether an instruction is one that a recording adds. -/
def isRecorded : Instruction → Bool
  | wait (.literal (.float _)) | leftClick | rightClick | doubleClick => true
  | move (.literal _) (.operand (.literal _)) time => time = .float (.zero false)
  | _ => false

end Instruction

namespace Recording

/-- Whether all instructions of a recording are such as recordings add. -/
def Holds (r : Recording) : Prop :=
  ∀ inst ∈ r.instructions.toList, inst.isRecorded = true

variable {r : Recording}

private theorem waitCode_recorded (wait : Option Binary64) : ∀ inst ∈ waitCode wait, inst.isRecorded = true := by
  cases wait with
  | none => exact List.forall_mem_nil _
  | some t => exact List.forall_mem_singleton.mpr rfl

private theorem pressCode_recorded (x y : Number) (button : MouseButton) :
    ∀ inst ∈ pressCode x y button, inst.isRecorded = true := by
  have hmove : (moveTo x y).isRecorded = true := by simp [moveTo, Instruction.isRecorded]
  cases button with
  | left | right => exact List.forall_mem_cons.mpr ⟨hmove, List.forall_mem_singleton.mpr rfl⟩
  | middle => exact List.forall_mem_singleton.mpr hmove
  | other => exact List.forall_mem_nil _

theorem Holds.onClick (h : r.Holds) (now : Binary64) (x y : Number) (button : MouseButton) (pressed : Bool) :
    (r.onClick now x y button pressed).1.Holds := by
  by_cases hon : r.active = true ∧ pressed = true
  · obtain ⟨ha, rfl⟩ := hon
    let p : Press := ⟨now, x, y, button⟩
    have hwait := waitCode_recorded (waitAfter? (r.gapBefore p))
    change (r.press p).1.Holds
    by_cases hquick : button = .left ∧ isQuick (r.gapBefore p) = true
    · rw [Holds, (press_takes ha hquick.1 hquick.2).2.2.2]
      refine List.forall_mem_append.mpr ⟨fun inst hi => ?_, fun inst hi => ?_⟩
      · have hwaited := List.dropLast_subset _ (List.dropLast_subset _ hi)
        exact (List.mem_append.mp hwaited).elim (h inst) (hwait inst)
      · split at hi
        · cases hi
        · obtain rfl := List.mem_singleton.mp hi
          rfl
    · have hslow : p.button ≠ .left ∨ isQuick (r.gapBefore p) = false := by
        rw [← Bool.not_eq_true]
        exact not_and_or.mp hquick
      obtain ⟨r', hpress, hgoes⟩ := press_adds ha hslow
      rw [hpress, Holds, hgoes.instructions]
      exact List.forall_mem_append.mpr ⟨h, List.forall_mem_append.mpr ⟨hwait, pressCode_recorded x y button⟩⟩
  · have hoff : (!r.active || !pressed) = true := by
      rw [not_and_or, Bool.not_eq_true, Bool.not_eq_true] at hon
      rcases hon with ha | rfl
      · rw [ha]
        rfl
      · exact Bool.or_true _
    rw [Recording.onClick, if_pos hoff]
    exact h

end Recording

namespace RecordingRun.Progress

variable {p : Progress}

theorem holds_quit (h : p.recording.Holds) : p.quit.1.recording.Holds := by
  have hsame : p.quit.1.recording.instructions = p.recording.instructions := by
    unfold quit
    dsimp only
    split <;> rfl
  rw [Recording.Holds, hsame]
  exact h

theorem holds_hearKey (h : p.recording.Holds) (key : Key) : (p.hearKey key).1.recording.Holds := by
  have hquit := holds_quit h
  rw [hearKey]
  split
  · generalize p.quit = result at hquit ⊢
    exact hquit
  · have hkey : (p.recording.onKey key).1.Holds := by
      unfold Recording.onKey
      split <;> exact h
    generalize p.recording.onKey key = result at hkey ⊢
    exact hkey

theorem holds_take (h : p.recording.Holds) (now : Binary64) (input : UserInput) :
    (p.take now input).1.recording.Holds := by
  cases input with
  | mouse x y button pressed =>
    have hclick := h.onClick now x y button pressed
    rw [take]
    generalize p.recording.onClick now x y button pressed = result at hclick ⊢
    exact hclick
  | key key => exact holds_hearKey h key
  | stopButton =>
    rw [take]
    split
    · rename_i device _
      exact @holds_hearKey ⟨p.recording, device⟩ h _
    · exact h

/-- A recording that is played on holds nothing else than before. -/
theorem holds_play (h : p.recording.Holds) (now : Binary64) (inputs : List TimedInput) :
    (p.play now inputs).1.recording.Holds := by
  induction inputs generalizing p now with
  | nil => exact h
  | cons timed rest ih =>
    have htake := holds_take h (timed.time.getD now) timed.input
    rw [play]
    split
    · rename_i hstop
      rw [hstop] at htake
      exact htake
    · rename_i hgoes
      rw [hgoes] at htake
      exact ih htake _

end RecordingRun.Progress

namespace Listing

variable (m : Machine)

private theorem text_of_shown {v : Number} {text : String} (h : shown (m.value (.literal v)) = .ok text) :
    text = v.text := by
  change v.shown.mapError Fault.arithmetic = _ at h
  unfold Number.shown at h
  split at h
  · split at h
    · cases h
    · exact (Except.ok.inj h).symm
  · exact (Except.ok.inj h).symm

/-- What a recording adds is listed as a line that builds an instruction without a label, if it can be shown. -/
theorem yields_recorded {inst : Instruction} {entry : Entry} (hr : inst.isRecorded = true)
    (h : Listing.entry (readerOf m) inst = .ok entry) :
    ∃ text again, entry = .line text ∧ Yields text (.instruction again) ∧ again.label? = none := by
  have hbare (hb : inst ∈ bare) (hl : inst.label? = none) :
      ∃ text again, entry = .line text ∧ Yields text (.instruction again) ∧ again.label? = none := by
    obtain ⟨text, he, hy⟩ := relists_bare m hb
    exact ⟨text, inst, Except.ok.inj (h.symm.trans he), hy, hl⟩
  unfold Instruction.isRecorded at hr
  split at hr
  · rename_i t
    exact ⟨_, _, (Except.ok.inj h).symm, yields_wait (.float t), rfl⟩
  · exact hbare (by decide) rfl
  · exact hbare (by decide) rfl
  · exact hbare (by decide) rfl
  · rename_i x y time
    obtain rfl : time = .float (.zero false) := of_decide_eq_true hr
    change (movement (readerOf m) "move" (.literal x) (.operand (.literal y)) _).map Entry.line = _ at h
    unfold movement at h
    cases hx : shown ((readerOf m).operand (.literal x)) with
    | error fault => rw [hx] at h; cases h
    | ok tx =>
      cases hy : shown ((readerOf m).argument (.operand (.literal y))) with
      | error fault => rw [hx, hy] at h; cases h
      | ok ty =>
        rw [hx, hy] at h
        obtain rfl := text_of_shown m hx
        obtain rfl := text_of_shown m hy
        exact ⟨_, _, (Except.ok.inj h).symm, yields_movement .move x y (.zero false), rfl⟩
  · cases hr

theorem lines_recorded {program : List Instruction} (hr : ∀ inst ∈ program, inst.isRecorded = true)
    {listed : Except Instruction (List String)} (h : lines (readerOf m) program = .ok listed) :
    ∃ (texts : List String) (code : List Instruction), listed = .ok texts ∧
      List.Forall₂ Yields texts (code.map .instruction) ∧ ∀ inst ∈ code, inst.label? = none := by
  induction program generalizing listed with
  | nil => exact ⟨[], [], (Except.ok.inj h).symm, .nil, by simp⟩
  | cons inst rest ih =>
    rw [List.forall_mem_cons] at hr
    rw [lines] at h
    cases he : Listing.entry (readerOf m) inst with
    | error fault => rw [he] at h; cases h
    | ok entry =>
      obtain ⟨text, again, rfl, hy, hl⟩ := yields_recorded m hr.1 he
      cases hrest : lines (readerOf m) rest with
      | error fault =>
        rw [he] at h
        simp only [bind, Except.bind, hrest] at h
        cases h
      | ok more =>
        obtain ⟨texts, code, rfl, hyields, hlabels⟩ := ih hr.2 hrest
        rw [he] at h
        simp only [bind, Except.bind, hrest] at h
        exact ⟨text :: texts, again :: code, (Except.ok.inj h).symm, .cons hy hyields,
          List.forall_mem_cons.mpr ⟨hl, hlabels⟩⟩

end Listing

/-- A script that a recording sends defines no label, and it compiles to instructions that go to none. -/
theorem sent_compiles {moment : Moment} {device : Device} {start : Binary64} {inputs : List TimedInput}
    {source : String} (h : (recordSession moment device start inputs .ready).sent = some source) (safe : Bool) :
    definedNames (sourceLines source) = [] ∧ ∃ code : List Instruction, (∀ inst ∈ code, inst.label? = none) ∧
      (compile safe source).1 = .program (Standard.initial safe ++ code).toArray := by
  unfold recordSession at h
  dsimp only at h
  generalize hbegun : (⟨({ lastTime := start : Recording }.start start), device⟩ : RecordingRun.Progress) = begun at h
  have hbegin : begun.recording.Holds := by
    rw [← hbegun]
    intro inst hi
    simp [Recording.start, Recording.say] at hi
  have hholds := RecordingRun.Progress.holds_play hbegin start inputs
  rcases hplay : begun.play start inputs with ⟨p, stop⟩
  rw [hplay] at h hholds
  cases stop with
  | ended ending => cases h
  | finished =>
    unfold RecordingRun.Progress.deliver at h
    dsimp only at h
    split at h
    · cases h
    · have hall : ∀ inst ∈ p.recording.complete.instructions.toList, inst.isRecorded = true :=
        hholds
      unfold Listing.source at h
      cases hlines : Listing.lines (Listing.readerOf {}) p.recording.complete.instructions.toList with
      | error fault => rw [hlines] at h; cases h
      | ok listed =>
        obtain ⟨texts, code, rfl, hyields, hlabels⟩ := Listing.lines_recorded {} hall hlines
        rw [hlines] at h
        obtain rfl := Option.some.inj h
        refine ⟨?_, code, hlabels, (Listing.compile_lines hyields moment safe).mpr ⟨hlabels, rfl⟩⟩
        have hnames : namesOf (code.map .instruction) = [] := by simp [namesOf, Built.label?]
        rw [Listing.sourceLines_header (isLine_of_yields hyields), ← namesOf_alone (alone_yields hyields hnames),
          hnames]

end PointerScript
