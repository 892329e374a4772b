import PointerScript.Window.Editor

/-! The editor and the program beside it.

Clicks start programs, a program sends what it recorded and ends, and a timer makes the editor look after it. These come
in any order. What is started, what has ended and what was found to have ended balance at every moment, and so do the
recorded scripts that were sent with those that have been taken into the script and those that still wait. -/

namespace PointerScript

namespace Editor

/-- What can happen between the editor and the program beside it: a click on a button, a recorded script that the
program sends, the rest of the program up to its end, and the timer of the editor. -/
inductive Move where
  | run
  | record
  | put (source : String)
  | finish (inputs : ChildInputs)
  | tick

def alive (e : Editor) : Bool :=
  e.child.any (·.alive)

/-- What a move does. Only a program that runs can send and end, and the timer stands still unless it was started. -/
def move (e : Editor) : Move → Editor
  | .run => e.clickRun.1
  | .record => e.clickRecord
  | .put source => if e.alive then { e with recordings := e.recordings ++ [source] } else e
  | .finish inputs => if e.alive then (e.runChild inputs).1 else e
  | .tick => if e.monitoring then e.poll else e

def play (e : Editor) (moves : List Move) : Editor :=
  moves.foldl move e

/-- Whether a move is a click that starts a program. -/
def starts (e : Editor) : Move → Bool
  | .run | .record => e.buttonsEnabled
  | _ => false

def ends (e : Editor) : Move → Bool
  | .finish _ => e.alive
  | _ => false

/-- Whether a move is a poll that finds no program running. -/
def finds (e : Editor) : Move → Bool
  | .tick => e.monitoring && !e.alive
  | _ => false

/-- How many of some moves are of a kind. -/
def tally (kind : Editor → Move → Bool) (e : Editor) : List Move → Nat
  | [] => 0
  | m :: rest => (kind e m).toNat + tally kind (e.move m) rest

def sends (e : Editor) : Move → List String
  | .put source => if e.alive then [source] else []
  | .finish inputs =>
    match e.alive, (e.runChild inputs).2 with
    | true, .ok session => session.sent.toList
    | _, _ => []
  | _ => []

/-- All that programs send in some moves, in order. -/
def sent (e : Editor) : List Move → List String
  | [] => []
  | m :: rest => e.sends m ++ (e.move m).sent rest

/-- Scripts one after another, each between two ends of lines. -/
def framed : List String → Text.WideText
  | [] => []
  | source :: rest => .ofChars ("\n" ++ source ++ "\n").toList ++ framed rest

/-- No program is there and none is looked after. -/
structure Resting (e : Editor) : Prop where
  child : e.child = none
  enabled : e.buttonsEnabled = true
  unwatched : e.monitoring = false
  deaf : e.listening = false
  recordings : e.recordings = []

/-- A program is looked after, whether it still runs or not. -/
structure Busy (e : Editor) : Prop where
  child : e.child.isSome = true
  disabled : e.buttonsEnabled = false
  watched : e.monitoring = true
  listening : e.listening = true

/-- The parts of the editor that these moves are about, apart from the messages. -/
structure Desk where
  text : Text.WideText
  buttonsEnabled : Bool
  monitoring : Bool
  child : Option Child
  listening : Bool
  recordings : List String
  insertionsFail : Bool
  settings : Settings

def desk (e : Editor) : Desk :=
  ⟨e.text, e.buttonsEnabled, e.monitoring, e.child, e.listening, e.recordings, e.insertionsFail, e.settings⟩

namespace Desk

def started (d : Desk) (job : Job) : Desk :=
  { d with child := some { job := job }, buttonsEnabled := false, monitoring := true, listening := true }

/-- The recorded scripts that have arrived are taken into the script. -/
def updated (d : Desk) : Desk :=
  { d with text := if d.insertionsFail then d.text else d.text ++ framed d.recordings, recordings := [] }

/-- Another program can be started. -/
def freed (d : Desk) : Desk :=
  { d with child := none, buttonsEnabled := true, monitoring := false, listening := false }

end Desk

variable {e e' : Editor}

/-- The editor without its messages and what the terminal shows of them. -/
def muted (e : Editor) : Editor :=
  { e with queued := #[], held := 0, inserted := #[], log := #[] }

theorem muted_insert (e : Editor) (inked : Inked) : (e.insert inked).muted = e.muted := by
  unfold insert
  split <;> rfl

theorem muted_display (e : Editor) (r : LogRecord) : (e.display r).muted = e.muted := by
  unfold display
  split
  · exact muted_insert e _
  · rfl

theorem muted_note (e : Editor) (r : LogRecord) : (e.note r).muted = e.muted := by
  unfold note
  extract_lets logged
  split
  · rfl
  · exact muted_display logged r

theorem muted_say (e : Editor) (level : Level) (message : String) : (e.say level message).muted = e.muted :=
  e.muted_note _

theorem muted_sayFault (e : Editor) (message : String) : (e.sayFault message).muted = e.muted :=
  muted_insert _ _

theorem muted_foldl {f : Editor → LogRecord → Editor} (hf : ∀ e r, (f e r).muted = e.muted) (e : Editor)
    (messages : Log) : (messages.foldl f e).muted = e.muted := by
  rw [← Array.foldl_toList]
  induction messages.toList generalizing e with
  | nil => rfl
  | cons r rest ih => exact (ih _).trans (hf e r)

theorem muted_forward (e : Editor) : e.forward.muted = e.muted :=
  muted_foldl muted_display e e.queued

/-- Messages leave all that the moves are about as it was. -/
theorem desk_congr (h : e'.muted = e.muted) : e'.desk = e.desk := by
  change e'.muted.desk = e.muted.desk
  rw [h]

theorem Resting.congr (hr : e.Resting) (h : e'.desk = e.desk) : e'.Resting :=
  ⟨(congrArg Desk.child h).trans hr.child, (congrArg Desk.buttonsEnabled h).trans hr.enabled,
    (congrArg Desk.monitoring h).trans hr.unwatched, (congrArg Desk.listening h).trans hr.deaf,
    (congrArg Desk.recordings h).trans hr.recordings⟩

/-- An editor that has just been opened has its settings and files, and all else is as it is at first. -/
theorem start_eq {host : Host} {files : Files} {examples : Option Files} {device : Device}
    (h : (start host files examples device).2.1 = .ok e) :
    ∃ settings kept font, e.muted = Editor.muted
      { settings := settings, files := kept, examples := examples, device := device, font := font } := by
  unfold start at h
  dsimp only at h
  split at h
  · cases h
  · obtain rfl := Except.ok.inj h
    exact ⟨_, _, _, muted_say _ _ _⟩

/-- An editor that has just been opened is at rest. -/
theorem start_resting {host : Host} {files : Files} {examples : Option Files} {device : Device}
    (h : (start host files examples device).2.1 = .ok e) : e.Resting := by
  obtain ⟨settings, kept, font, hm⟩ := start_eq h
  have hdesk := desk_congr hm
  exact Resting.congr ⟨rfl, rfl, rfl, rfl, rfl⟩ hdesk

theorem start_ok {host : Host} {files : Files} {examples : Option Files} {device : Device}
    (h : (start host files examples device).2.1.toOption.isSome = true) :
    (start host files examples device).2.1 = .ok ((start host files examples device).2.1.toOption.getD {}) := by
  generalize (start host files examples device).2.1 = opened at h ⊢
  cases opened with
  | ok e => rfl
  | error fault => cases h

/-- A program that ends leaves nothing but what it sends and its messages. -/
theorem runChild_eq {child : Child} (h : e.child = some child) (inputs : ChildInputs) :
    let session := carryOut e.device child.job inputs
    (e.runChild inputs).1.desk = { e.desk with
      child := some { child with alive := false }, recordings := e.recordings ++ session.sent.toList } ∧
    (e.runChild inputs).2 = .ok session := by
  rw [runChild, h]
  exact ⟨rfl, rfl⟩

/-- A recorded script goes to the end of the script, unless nothing can be inserted. -/
theorem desk_insertRecording (e : Editor) (source : String) : (e.insertRecording source).desk =
    { e.desk with text := if e.insertionsFail then e.text else e.text ++ .ofChars ("\n" ++ source ++ "\n").toList } := by
  unfold insertRecording
  split
  · rename_i hfail
    rw [desk_congr (muted_sayFault e _)]
    simp [desk, hfail]
  · rename_i hfine
    rw [desk_congr (muted_say _ _ _), setText]
    simp [desk, hfine]

theorem desk_takeRecordings (e : Editor) : e.takeRecordings.desk = e.desk.updated := by
  have hfold (e : Editor) (sources : List String) : (sources.foldl insertRecording e).desk =
      { e.desk with text := if e.insertionsFail then e.text else e.text ++ framed sources } := by
    induction sources generalizing e with
    | nil => simp [framed, desk]
    | cons source rest ih =>
      have hd := desk_insertRecording e source
      have hfail : (e.insertRecording source).insertionsFail = e.insertionsFail := congrArg Desk.insertionsFail hd
      have htext := congrArg Desk.text hd
      change (e.insertRecording source).text = _ at htext
      rw [List.foldl_cons, ih, hd, hfail, htext]
      cases hf : e.insertionsFail <;> simp [framed]
  exact hfold _ e.recordings

theorem desk_stopListening (h : e.listening = true) : e.stopListening.desk = { e.desk with listening := false } := by
  rw [stopListening, if_pos h]
  exact congrArg (fun d : Desk => { d with listening := false }) (desk_congr e.muted_forward)

theorem alive_takeRecordings (e : Editor) : e.takeRecordings.alive = e.alive := by
  rw [alive, show e.takeRecordings.child = e.child from congrArg Desk.child e.desk_takeRecordings, alive]

/-- While the program runs, a poll only takes up recorded scripts. -/
theorem desk_poll_alive (h : e.alive = true) : e.poll.desk = e.desk.updated := by
  have halive : e.takeRecordings.child.any (·.alive) = true := e.alive_takeRecordings.trans h
  rw [poll, if_pos halive, desk_takeRecordings]

/-- A poll that finds the program ended takes up what has arrived, stops listening and gives the buttons free. -/
theorem desk_poll_dead (h : e.alive = false) (hl : e.listening = true) : e.poll.desk = e.desk.updated.freed := by
  have halive : ¬ e.takeRecordings.child.any (·.alive) = true := by
    exact Bool.eq_false_iff.mp (e.alive_takeRecordings.trans h)
  have hd := (desk_congr (muted_say e.takeRecordings .debug "Child process has exited; cleaning up.")).trans
    e.desk_takeRecordings
  rw [poll, if_neg halive]
  generalize e.takeRecordings.say .debug "Child process has exited; cleaning up." = told at hd ⊢
  have hlistening : told.listening = true := (congrArg Desk.listening hd).trans hl
  rw [← hd]
  exact congrArg (fun d : Desk => { d with child := none, buttonsEnabled := true, monitoring := false })
    (desk_stopListening hlistening)

theorem pauseKey?_congr (h : e'.settings = e.settings) : e'.pauseKey? = e.pauseKey? := by
  rw [pauseKey?, pauseKey?, h]

/-- An enabled run button makes the editor listen, and starts a program if the pause key is valid. -/
theorem muted_clickRun (h : e.buttonsEnabled = true) :
    ∃ job, e.clickRun.1.muted = Editor.muted
      (if e.pauseKey?.isSome = true then { e with listening := true }.launch job else { e with listening := true }) := by
  unfold clickRun
  rw [if_neg (by simp [h])]
  extract_lets clears cleared noted told
  have hcleared : cleared.muted = e.muted := by
    unfold cleared
    split <;> rfl
  have hnoted : noted.muted = e.muted := (muted_note cleared _).trans hcleared
  have htold : told.muted = Editor.muted { e with listening := true } :=
    congrArg (fun d : Editor => { d with listening := true }) hnoted
  have hkey : told.pauseKey? = e.pauseKey? := pauseKey?_congr (congrArg Desk.settings (desk_congr htold))
  rw [hkey]
  cases e.pauseKey? with
  | none => exact ⟨.recording, htold⟩
  | some key => exact ⟨_, congrArg (fun d : Editor => d.launch _) htold⟩

/-- With a valid pause key an enabled run button starts a program. -/
theorem desk_clickRun (h : e.buttonsEnabled = true) (hk : e.pauseKey?.isSome = true) :
    ∃ job, e.clickRun.1.desk = e.desk.started job := by
  obtain ⟨job, hm⟩ := muted_clickRun h
  rw [if_pos hk] at hm
  exact ⟨job, desk_congr hm⟩

theorem desk_clickRecord (h : e.buttonsEnabled = true) :
    e.clickRecord.desk = { e.desk with recordings := [] }.started .recording := by
  rw [clickRecord, if_neg (by simp [h]), ← desk_congr (muted_say e .info "Starting recording session")]
  rfl

theorem framed_append (before rest : List String) : framed (before ++ rest) = framed before ++ framed rest := by
  induction before with
  | nil => simp [framed]
  | cons source before ih => simp [framed, ih]

/-- How two states of the editor balance, with moves between them that start some programs, end some, find some to have
ended and send some scripts. -/
structure Balanced (e : Editor) (started ended found : Nat) (sent : List String) (e' : Editor) : Prop where
  settings : e'.settings = e.settings
  insertionsFail : e'.insertionsFail = e.insertionsFail
  alive : started + e.alive.toNat = ended + e'.alive.toNat
  busy : started + (!e.buttonsEnabled).toNat = found + (!e'.buttonsEnabled).toNat
  recordings : e.insertionsFail = false →
    ∃ taken, e.recordings ++ sent = taken ++ e'.recordings ∧ e'.text = e.text ++ framed taken

namespace Balanced

theorem refl (e : Editor) : Balanced e 0 0 0 [] e :=
  ⟨rfl, rfl, rfl, rfl, fun _ => ⟨[], by simp, by simp [framed]⟩⟩

theorem trans {e₁ e₂ e₃ : Editor} {started started' ended ended' found found' : Nat} {sent sent' : List String}
    (h : Balanced e₁ started ended found sent e₂) (h' : Balanced e₂ started' ended' found' sent' e₃) :
    Balanced e₁ (started + started') (ended + ended') (found + found') (sent ++ sent') e₃ := by
  refine ⟨h'.settings.trans h.settings, h'.insertionsFail.trans h.insertionsFail, ?_, ?_, ?_⟩
  · have := h.alive
    have := h'.alive
    omega
  · have := h.busy
    have := h'.busy
    omega
  · intro hfine
    obtain ⟨taken, hsent, htext⟩ := h.recordings hfine
    obtain ⟨taken', hsent', htext'⟩ := h'.recordings (h.insertionsFail.trans hfine)
    refine ⟨taken ++ taken', ?_, ?_⟩
    · rw [← List.append_assoc, hsent, List.append_assoc, hsent', List.append_assoc]
    · rw [htext', htext, framed_append, List.append_assoc]

end Balanced

/-- What is sent waits, as long as the script stays as it is. -/
private theorem waits {sent : List String} (hr : e'.recordings = e.recordings ++ sent) (ht : e'.text = e.text) :
    ∃ taken, e.recordings ++ sent = taken ++ e'.recordings ∧ e'.text = e.text ++ framed taken :=
  ⟨[], hr.symm, by rw [ht, framed, List.append_nil]⟩

/-- What has arrived is taken into the script. -/
private theorem takes (hr : e'.recordings = []) (ht : e'.text = e.desk.updated.text)
    (hfine : e.insertionsFail = false) :
    ∃ taken, e.recordings ++ [] = taken ++ e'.recordings ∧ e'.text = e.text ++ framed taken := by
  refine ⟨e.recordings, by rw [hr], ?_⟩
  rw [ht]
  simp only [Desk.updated, desk, hfine, Bool.false_eq_true, if_false]

theorem Resting.not_alive (hr : e.Resting) : e.alive = false := by
  rw [alive, hr.child]
  rfl

/-- A click starts a program where there was none. -/
private theorem balanced_start (hr : e.Resting) {job : Job} (h : e'.desk = e.desk.started job) :
    Balanced e 1 0 0 [] e' ∧ e'.Busy := by
  have hchild : e'.child = some { job := job } := congrArg Desk.child h
  have halive : e'.alive = true := by rw [alive, hchild]; rfl
  have hdisabled : e'.buttonsEnabled = false := congrArg Desk.buttonsEnabled h
  refine ⟨⟨congrArg Desk.settings h, congrArg Desk.insertionsFail h, ?_, ?_, fun _ => ?_⟩, ?_⟩
  · rw [hr.not_alive, halive]
    rfl
  · rw [hr.enabled, hdisabled]
    rfl
  · exact waits ((congrArg Desk.recordings h).trans (List.append_nil _).symm) (congrArg Desk.text h)
  · exact ⟨hchild ▸ rfl, hdisabled, congrArg Desk.monitoring h, congrArg Desk.listening h⟩

/-- A program ends; what it sends last waits for the next poll. -/
private theorem balanced_finish (hb : e.Busy) (halive : e.alive = true) {child : Child} {last : List String}
    (h : e'.desk = { e.desk with
      child := some { child with alive := false }, recordings := e.recordings ++ last }) :
    Balanced e 0 1 0 last e' ∧ e'.Busy := by
  have hchild : e'.child = some { child with alive := false } := congrArg Desk.child h
  have hdead : e'.alive = false := by rw [alive, hchild]; rfl
  have hdisabled : e'.buttonsEnabled = e.buttonsEnabled := congrArg Desk.buttonsEnabled h
  refine ⟨⟨congrArg Desk.settings h, congrArg Desk.insertionsFail h, ?_, ?_, fun _ => ?_⟩, ?_⟩
  · rw [halive, hdead]
    rfl
  · rw [hdisabled]
  · exact waits (congrArg Desk.recordings h) (congrArg Desk.text h)
  · exact ⟨hchild ▸ rfl, hdisabled.trans hb.disabled, (congrArg Desk.monitoring h).trans hb.watched,
      (congrArg Desk.listening h).trans hb.listening⟩

/-- What has arrived is in the script after a poll, and if the program has ended, the editor is at rest. -/
private theorem balanced_poll (hb : e.Busy) :
    Balanced e 0 0 (!e.alive).toNat [] e.poll ∧ (e.poll.Resting ∨ e.poll.Busy) := by
  cases halive : e.alive with
  | true =>
    have h := desk_poll_alive halive
    have hchild : e.poll.child = e.child := congrArg Desk.child h
    have hdisabled : e.poll.buttonsEnabled = e.buttonsEnabled := congrArg Desk.buttonsEnabled h
    refine ⟨⟨congrArg Desk.settings h, congrArg Desk.insertionsFail h, ?_, ?_, ?_⟩, .inr ?_⟩
    · rw [alive, alive, hchild]
    · rw [hdisabled]
      rfl
    · exact takes (congrArg Desk.recordings h) (congrArg Desk.text h)
    · exact ⟨hchild ▸ hb.child, hdisabled.trans hb.disabled, (congrArg Desk.monitoring h).trans hb.watched,
        (congrArg Desk.listening h).trans hb.listening⟩
  | false =>
    have h := desk_poll_dead halive hb.listening
    have hrest : e.poll.Resting :=
      ⟨congrArg Desk.child h, congrArg Desk.buttonsEnabled h, congrArg Desk.monitoring h, congrArg Desk.listening h,
        congrArg Desk.recordings h⟩
    refine ⟨⟨congrArg Desk.settings h, congrArg Desk.insertionsFail h, ?_, ?_, ?_⟩, .inl hrest⟩
    · rw [halive, hrest.not_alive]
    · rw [hb.disabled, hrest.enabled]
      rfl
    · exact takes hrest.recordings (congrArg Desk.text h)

/-- Between programs only clicks do anything. -/
theorem Resting.move (hr : e.Resting) (hk : e.pauseKey?.isSome = true) (m : Move) :
    Balanced e (e.starts m).toNat (e.ends m).toNat (e.finds m).toNat (e.sends m) (e.move m) ∧
      ((e.move m).Resting ∨ (e.move m).Busy) := by
  cases m with
  | run =>
    obtain ⟨job, hd⟩ := desk_clickRun hr.enabled hk
    obtain ⟨hb, hbusy⟩ := balanced_start hr hd
    rw [starts, hr.enabled]
    exact ⟨hb, .inr hbusy⟩
  | record =>
    have hd := desk_clickRecord hr.enabled
    rw [← hr.recordings] at hd
    obtain ⟨hb, hbusy⟩ := balanced_start hr hd
    rw [starts, hr.enabled]
    exact ⟨hb, .inr hbusy⟩
  | put source =>
    rw [Editor.move, sends, hr.not_alive]
    exact ⟨.refl e, .inl hr⟩
  | finish inputs =>
    rw [Editor.move, ends, sends, hr.not_alive]
    exact ⟨.refl e, .inl hr⟩
  | tick =>
    rw [Editor.move, finds, hr.unwatched]
    exact ⟨.refl e, .inl hr⟩

/-- While a program is looked after, clicks do nothing. -/
theorem Busy.move (hb : e.Busy) (m : Move) :
    Balanced e (e.starts m).toNat (e.ends m).toNat (e.finds m).toNat (e.sends m) (e.move m) ∧
      ((e.move m).Resting ∨ (e.move m).Busy) := by
  cases m with
  | run =>
    rw [Editor.move, starts, clickRun, hb.disabled]
    exact ⟨.refl e, .inr hb⟩
  | record =>
    rw [Editor.move, starts, clickRecord, hb.disabled]
    exact ⟨.refl e, .inr hb⟩
  | put source =>
    rw [Editor.move, sends]
    split
    · exact ⟨⟨rfl, rfl, rfl, rfl, fun _ => waits rfl rfl⟩, .inr ⟨hb.child, hb.disabled, hb.watched, hb.listening⟩⟩
    · exact ⟨.refl e, .inr hb⟩
  | finish inputs =>
    rw [Editor.move, ends, sends]
    cases halive : e.alive with
    | false => exact ⟨.refl e, .inr hb⟩
    | true =>
      obtain ⟨child, hchild⟩ := Option.isSome_iff_exists.mp hb.child
      obtain ⟨hd, hsession⟩ := runChild_eq hchild inputs
      obtain ⟨hbalanced, hbusy⟩ := balanced_finish hb halive hd
      rw [if_pos rfl, hsession]
      exact ⟨hbalanced, .inr hbusy⟩
  | tick =>
    rw [Editor.move, finds, hb.watched]
    exact balanced_poll hb

/-- One move, whatever the editor is doing. -/
theorem move_balanced (h : e.Resting ∨ e.Busy) (hk : e.pauseKey?.isSome = true) (m : Move) :
    Balanced e (e.starts m).toNat (e.ends m).toNat (e.finds m).toNat (e.sends m) (e.move m) ∧
      ((e.move m).Resting ∨ (e.move m).Busy) :=
  h.elim (fun hr => hr.move hk m) fun hb => hb.move m

/-- However many moves are made, the states before and after them balance. -/
theorem play_balanced (h : e.Resting ∨ e.Busy) (hk : e.pauseKey?.isSome = true) (moves : List Move) :
    Balanced e (e.tally starts moves) (e.tally ends moves) (e.tally finds moves) (e.sent moves) (e.play moves) ∧
      ((e.play moves).Resting ∨ (e.play moves).Busy) := by
  induction moves generalizing e with
  | nil => exact ⟨.refl e, h⟩
  | cons m rest ih =>
    obtain ⟨hmove, hnext⟩ := move_balanced h hk m
    obtain ⟨hrest, hlast⟩ := ih hnext (pauseKey?_congr hmove.settings ▸ hk)
    exact ⟨hmove.trans hrest, hlast⟩

/-- The editor listens while the buttons are disabled. -/
theorem listening_eq (h : e.Resting ∨ e.Busy) : e.listening = !e.buttonsEnabled := by
  rcases h with hr | hb
  · rw [hr.deaf, hr.enabled]
    rfl
  · rw [hb.listening, hb.disabled]
    rfl

/-- The buttons are disabled by a start, and enabled by the poll that finds the program ended. -/
theorem buttons_switch (h : e.Resting ∨ e.Busy) (hk : e.pauseKey?.isSome = true) (m : Move) :
    (e.starts m = true ↔ e.buttonsEnabled = true ∧ (e.move m).buttonsEnabled = false) ∧
      (e.finds m = true ↔ e.buttonsEnabled = false ∧ (e.move m).buttonsEnabled = true) := by
  have hbalance := (move_balanced h hk m).1.busy
  have hstarts : e.starts m = true → e.buttonsEnabled = true := by
    cases m <;> simp [starts]
  have hfinds : e.finds m = true → e.buttonsEnabled = false := by
    intro hf
    rcases h with hr | hb
    · cases m <;> simp [finds, hr.unwatched] at hf
    · exact hb.disabled
  revert hbalance hstarts hfinds
  cases e.starts m <;> cases e.finds m <;> cases e.buttonsEnabled <;> cases (e.move m).buttonsEnabled <;> simp

/-- Nothing is lost between the editor and the programs beside it. With a valid pause key, after any moves: all programs
that were started have ended, but for the one that runs; all of them were found to have ended, but for one while the
buttons are disabled. A start and nothing else disables the buttons and begins to listen, and the poll that finds the
program ended and nothing else enables them and ceases to. And what programs sent stands at the end of the script in
order, each between two ends of lines, up to what arrived since the last poll; while the buttons are enabled that is
all of it. -/
theorem supervision_loses_nothing (hr : e.Resting) (hk : e.pauseKey?.isSome = true) (moves : List Move) :
    let reached := e.play moves
    e.tally starts moves = e.tally ends moves + reached.alive.toNat ∧
    e.tally starts moves = e.tally finds moves + (!reached.buttonsEnabled).toNat ∧
    (∀ m, (reached.starts m = true ↔ reached.buttonsEnabled = true ∧ (reached.move m).buttonsEnabled = false) ∧
      (reached.finds m = true ↔ reached.buttonsEnabled = false ∧ (reached.move m).buttonsEnabled = true) ∧
      (reached.starts m = true ↔ reached.listening = false ∧ (reached.move m).listening = true) ∧
      (reached.finds m = true ↔ reached.listening = true ∧ (reached.move m).listening = false)) ∧
    (e.insertionsFail = false → ∃ taken, e.sent moves = taken ++ reached.recordings ∧
      reached.text = e.text ++ framed taken ∧ (reached.buttonsEnabled = true → reached.recordings = [])) := by
  intro reached
  obtain ⟨hbalanced, hphase⟩ := play_balanced (.inl hr) hk moves
  refine ⟨?_, ?_, fun m => ?_, fun hfine => ?_⟩
  · simpa [hr.not_alive] using hbalanced.alive
  · simpa [hr.enabled] using hbalanced.busy
  · have hvalid : reached.pauseKey?.isSome = true := pauseKey?_congr hbalanced.settings ▸ hk
    obtain ⟨hstarts, hfinds⟩ := buttons_switch hphase hvalid m
    have hlistening : reached.listening = !reached.buttonsEnabled := listening_eq hphase
    have hnext : (reached.move m).listening = !(reached.move m).buttonsEnabled :=
      listening_eq (move_balanced hphase hvalid m).2
    refine ⟨hstarts, hfinds, ?_, ?_⟩
    · simpa only [hlistening, hnext, Bool.not_eq_false', Bool.not_eq_true'] using hstarts
    · simpa only [hlistening, hnext, Bool.not_eq_false', Bool.not_eq_true'] using hfinds
  · obtain ⟨taken, hsent, htext⟩ := hbalanced.recordings hfine
    rw [hr.recordings, List.nil_append] at hsent
    refine ⟨taken, hsent, htext, fun henabled => ?_⟩
    rcases hphase with hrest | hbusy
    · exact hrest.recordings
    · rw [hbusy.disabled] at henabled
      cases henabled

/-- An editor is opened and a recording is made that sends one script before a poll and one just before it ends, with a
click in between that comes too early; then the script is run. -/
theorem recorded_scripts_arrive :
    let e := (start .plain [] none {}).2.1.toOption.getD {}
    let moves : List Move :=
      [.record, .put "click", .tick, .put "goback", .run, .finish {}, .tick, .run, .tick, .finish {}, .tick]
    (start .plain [] none {}).2.1 = .ok e ∧ (e.Resting ∧ e.pauseKey?.isSome = true) ∧
      e.tally starts moves = 2 ∧ e.tally finds moves = 2 ∧ (e.play moves).text = .ofChars "\nclick\n\ngoback\n".toList := by
  intro e moves
  have hstart : (start .plain [] none {}).2.1 = .ok e := start_ok (by decide +kernel)
  have hr : e.Resting := start_resting hstart
  obtain ⟨hk, hfine, hempty⟩ : e.pauseKey?.isSome = true ∧ e.insertionsFail = false ∧ e.text = [] := by
    decide +kernel
  obtain ⟨hstarted, hsent, henabled⟩ : e.tally starts moves = 2 ∧ e.sent moves = ["click", "goback"] ∧
      (e.play moves).buttonsEnabled = true := by decide +kernel
  obtain ⟨_, hfound, _, hscripts⟩ := supervision_loses_nothing hr hk moves
  obtain ⟨taken, htaken, htext, hrest⟩ := hscripts hfine
  rw [hrest henabled, List.append_nil, hsent] at htaken
  rw [hstarted, henabled] at hfound
  refine ⟨hstart, ⟨hr, hk⟩, hstarted, ?_, ?_⟩
  · exact (Nat.add_zero _).symm.trans hfound.symm
  · rw [htext, ← htaken, hempty]
    decide +kernel

end Editor

end PointerScript
