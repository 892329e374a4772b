import PointerScript.Proofs.Supervision

/-! Unsaved text. Scripts are typed, recorded, opened and saved, files come and go, and questions are answered in
one way or the other. A script that does not count as modified is always the one that was opened or saved last, and
nothing takes the place of a script that does, unless the user agrees. -/

namespace PointerScript

open Text

namespace Editor

/-- What can take the place of the script: an empty one, the file that is chosen, if any, or an example. -/
inductive Replacement where
  | empty
  | file (choice : Option String)
  | sample (examples : Files) (name : String)

/-- The text of a replacement, if it can be read. -/
def Replacement.text? (files : Files) : Replacement → Option WideText
  | empty => some []
  | file choice => choice.bind fun path => (files.readText path).toOption.map fun text => .ofChars text.toList
  | sample examples name => (examples.readText name).toOption.map fun text => .ofChars text.toList

/-- What can happen to an editor. The user types, chooses from the menus and answers what they ask, programs run beside
the editor and send what they recorded, and the files and the terminal may change from outside at any time. -/
inductive Doing where
  | type (text : WideText)
  | replace (replacement : Replacement) (consent : Bool)
  | save (choice : Option String)
  | saveAs (choice : Option String)
  | settings (acts : List SettingsAct)
  | beside (move : Move)
  | outside (files : Files) (insertionsFail : Bool)

/-- Whether the script is opened or saved. -/
def Doing.handlesFile : Doing → Bool
  | replace _ _ | save _ | saveAs _ => true
  | _ => false

def act (e : Editor) : Doing → Editor
  | .type text => e.setText text
  | .replace .empty consent => e.newFile consent
  | .replace (.file choice) consent => (e.openFile consent choice).1
  | .replace (.sample examples name) consent => e.loadExample examples name consent
  | .save choice => (e.saveFile choice).1
  | .saveAs choice => (e.saveFileAs choice).1
  | .settings acts => (e.editSettings acts).1
  | .beside m => e.move m
  | .outside files insertionsFail => { e with files := files, insertionsFail := insertionsFail }

def perform (e : Editor) (doings : List Doing) : Editor :=
  doings.foldl act e

/-- The script, if it can be written to the file that is chosen. -/
def stored? (e : Editor) (choice : Option String) : Option WideText :=
  choice.bind fun path => if (e.files.writePieces path [e.text]).2 = none then some e.text else none

/-- The text that is opened or saved, if this succeeds. -/
def settles? (e : Editor) : Doing → Option WideText
  | .replace replacement consent => if !e.modified || consent then replacement.text? e.files else none
  | .save choice => e.stored? (e.file <|> choice)
  | .saveAs choice => e.stored? choice
  | _ => none

/-- The text of the script right after it was last opened or saved with success. -/
def settled (e : Editor) (text : WideText) : List Doing → WideText
  | [] => text
  | d :: rest => (e.act d).settled (if (e.settles? d).isSome then (e.act d).text else text) rest

def script (e : Editor) : WideText × Bool :=
  (e.text, e.modified)

variable {e e' e'' : Editor}

theorem script_congr (h : e'.muted = e.muted) : e'.script = e.script := by
  change e'.muted.script = e.muted.script
  rw [h]

theorem script_say (e : Editor) (level : Level) (message : String) : (e.say level message).script = e.script :=
  script_congr (e.muted_say level message)

/-- The editor when the user has been asked about changes, if there are any. -/
def asked (e : Editor) : Editor :=
  { e with events := if e.modified then e.events.push (.question "Unsaved Changes") else e.events }

theorem confirmDiscard_eq (e : Editor) (consent : Bool) :
    e.confirmDiscard consent = (e.asked, !e.modified || consent) := by
  by_cases h : e.modified = true
  · simp only [confirmDiscard, asked, h, if_true, Bool.not_true, Bool.false_or]
  · simp only [confirmDiscard, asked, if_neg h]
    exact Prod.ext rfl (by simp [h])

/-- A replacement changes the script and its file and nothing else, once the user has been asked. -/
theorem muted_replace (e : Editor) (replacement : Replacement) (consent : Bool) :
    let text? := e.settles? (.replace replacement consent)
    ∃ file, (e.act (.replace replacement consent)).muted =
      Editor.muted { e.asked with
        text := text?.getD e.text, modified := text?.isNone && e.modified, file := file } := by
  intro text?
  cases hallowed : !e.modified || consent with
  | false =>
    have hnone : text? = none := by simp only [text?, settles?, hallowed, Bool.false_eq_true, if_false]
    rw [hnone]
    cases replacement <;> simp only [act, newFile, openFile, loadExample, confirmDiscard_eq, hallowed] <;>
      exact ⟨e.file, rfl⟩
  | true =>
    have htext : text? = replacement.text? e.files := by simp only [text?, settles?, hallowed, if_true]
    rw [htext]
    cases replacement with
    | empty =>
      simp only [act, newFile, confirmDiscard_eq, hallowed]
      refine ⟨none, ?_⟩
      rw [muted_say]
      rfl
    | file choice =>
      simp only [act, openFile, confirmDiscard_eq, hallowed, Replacement.text?]
      cases choice with
      | none =>
        refine ⟨e.file, ?_⟩
        rw [muted_say]
        rfl
      | some path =>
        dsimp only [Option.bind_some]
        rw [show e.asked.files = e.files from rfl]
        cases e.files.readText path with
        | ok text =>
          refine ⟨some path, ?_⟩
          rw [muted_say]
          rfl
        | error fault => exact ⟨e.file, rfl⟩
    | sample examples name =>
      simp only [act, loadExample, confirmDiscard_eq, hallowed, Replacement.text?]
      cases examples.readText name with
      | ok text =>
        refine ⟨none, ?_⟩
        rw [muted_say]
        rfl
      | error fault =>
        refine ⟨e.file, ?_⟩
        rw [muted_sayFault]
        rfl

/-- The script becomes what was saved, which is what it was, and does not count as modified if it could be saved. -/
theorem script_saveTo (e : Editor) (path : String) :
    (e.saveTo path).1.script = (e.stored? (some path)).elim e.script fun text => (text, false) := by
  rw [saveTo, stored?, Option.bind_some]
  dsimp only
  rcases e.files.writePieces path [e.text] with ⟨files, _ | fault⟩
  · rw [script_say]
    rfl
  · rfl

/-- The script is what was opened or saved if this has succeeded, and else stays as it was. -/
theorem script_act {d : Doing} (hd : d.handlesFile = true) (e : Editor) :
    (e.act d).script = (e.settles? d).elim e.script fun text => (text, false) := by
  cases d with
  | replace replacement consent =>
    obtain ⟨file, hm⟩ := e.muted_replace replacement consent
    rw [script_congr hm]
    cases e.settles? (.replace replacement consent) <;> rfl
  | save choice =>
    rw [act, saveFile, settles?]
    cases e.file <|> choice with
    | none => rfl
    | some path => exact e.script_saveTo path
  | saveAs choice =>
    cases choice with
    | none => rfl
    | some path => exact e.script_saveTo path
  | type | settings | beside | outside => cases hd

/-- The script has not changed, or it counts as modified. -/
def Heeds (e e' : Editor) : Prop :=
  e'.modified = true ∨ e'.script = e.script

namespace Heeds

theorem trans (h : Heeds e e') (h' : Heeds e' e'') : Heeds e e'' := by
  rcases h' with h' | h'
  · exact .inl h'
  · rcases h with h | h
    · exact .inl ((congrArg Prod.snd h').trans h)
    · exact .inr (h'.trans h)

theorem insertRecording (e : Editor) (source : String) : Heeds e (e.insertRecording source) := by
  unfold Editor.insertRecording
  split
  · exact .inr (script_congr (muted_sayFault _ _))
  · exact .inl (congrArg Prod.snd (script_say _ _ _))

theorem takeRecordings (e : Editor) : Heeds e e.takeRecordings := by
  have hfold (e : Editor) (sources : List String) : Heeds e (sources.foldl Editor.insertRecording e) := by
    induction sources generalizing e with
    | nil => exact .inr rfl
    | cons source rest ih => exact (insertRecording e source).trans (ih _)
  exact hfold _ e.recordings

theorem poll (e : Editor) : Heeds e e.poll := by
  refine (takeRecordings e).trans (.inr ?_)
  unfold Editor.poll
  extract_lets taken
  split
  · rfl
  · have hstop (told : Editor) : told.stopListening.script = told.script := by
      have hforward : told.forward.script = told.script := script_congr told.muted_forward
      unfold stopListening
      split
      · exact hforward
      · exact script_congr (muted_sayFault _ _)
    exact (hstop _).trans (script_say _ _ _)

theorem clickRun (e : Editor) : Heeds e e.clickRun.1 := by
  cases he : e.buttonsEnabled with
  | false =>
    rw [Editor.clickRun, he]
    exact .inr rfl
  | true =>
    obtain ⟨job, hm⟩ := muted_clickRun he
    right
    rw [script_congr hm]
    split <;> rfl

theorem move (e : Editor) (m : Move) : Heeds e (e.move m) := by
  cases m with
  | run => exact clickRun e
  | record =>
    have hsaid := e.script_say .info "Starting recording session"
    rw [Editor.move, clickRecord]
    split
    · exact .inr rfl
    · exact .inr hsaid
  | put source =>
    rw [Editor.move]
    split <;> exact .inr rfl
  | finish inputs =>
    rw [Editor.move, runChild]
    cases e.child <;> split <;> exact .inr rfl
  | tick =>
    rw [Editor.move]
    split
    · exact poll e
    · exact .inr rfl

theorem editSettings (e : Editor) (acts : List SettingsAct) : Heeds e (e.editSettings acts).1 := by
  unfold Editor.editSettings
  extract_lets opened
  rcases opened.settings.edit opened.files acts with ⟨session, _⟩
  dsimp -zeta only
  extract_lets edited noted
  have hopened : opened.script = e.script := e.script_say _ _
  have hnoted : noted.script = e.script := (script_congr (muted_foldl muted_note edited _)).trans hopened
  split
  · exact .inr hnoted
  · right
    rw [script_say, hnoted]

/-- What does not open or save the script heeds it. -/
theorem act {d : Doing} (hd : d.handlesFile = false) (e : Editor) : Heeds e (e.act d) := by
  cases d with
  | type text => exact .inl rfl
  | settings acts => exact editSettings e acts
  | beside m => exact move e m
  | outside files insertionsFail => exact .inr rfl
  | replace | save | saveAs => cases hd

end Heeds

/-- Only a script that is opened or saved settles a text. -/
theorem handlesFile_of_settles {d : Doing} {text : WideText} (h : e.settles? d = some text) : d.handlesFile = true := by
  cases d with
  | replace | save | saveAs => rfl
  | type | settings | beside | outside => cases h

/-- What succeeds leaves the text that was opened or saved. -/
theorem act_of_settles {d : Doing} {text : WideText} (h : e.settles? d = some text) :
    (e.act d).text = text ∧ (e.act d).modified = false := by
  have hscript := script_act (handlesFile_of_settles h) e
  rw [h] at hscript
  exact Prod.mk.inj hscript

/-- What is refused, cancelled or fails leaves the script as it was. -/
theorem act_of_unsettled {d : Doing} (hd : d.handlesFile = true) (h : e.settles? d = none) :
    (e.act d).text = e.text ∧ (e.act d).modified = e.modified := by
  have hscript := script_act hd e
  rw [h] at hscript
  exact Prod.mk.inj hscript

/-- Where nothing is opened or saved with success, the script has not changed or counts as modified. -/
theorem heeds_of_unsettled {d : Doing} (h : e.settles? d = none) : Heeds e (e.act d) := by
  cases hd : d.handlesFile with
  | true =>
    right
    rw [script_act hd, h]
    rfl
  | false => exact .act hd e

/-- One step: a script that does not count as modified is the text that was settled last. -/
theorem settled_act {text : WideText} (h : e.modified = false → e.text = text) (d : Doing)
    (hm : (e.act d).modified = false) :
    (e.act d).text = if (e.settles? d).isSome then (e.act d).text else text := by
  cases hs : e.settles? d with
  | some settled => rfl
  | none =>
    rcases heeds_of_unsettled hs with hmodified | hscript
    · rw [hm] at hmodified
      cases hmodified
    · obtain ⟨htext, hmodified⟩ := Prod.mk.inj hscript
      exact htext.trans (h (hmodified.symm.trans hm))

/-- All steps: a script that does not count as modified is the text that was settled last. -/
theorem settled_perform {text : WideText} (h : e.modified = false → e.text = text) (doings : List Doing)
    (hm : (e.perform doings).modified = false) : (e.perform doings).text = e.settled text doings := by
  induction doings generalizing e text with
  | nil => exact h hm
  | cons d rest ih => exact ih (settled_act h d) hm

/-- An editor that has just been opened has an empty script that does not count as modified. -/
theorem start_script {host : Host} {files : Files} {examples : Option Files} {device : Device}
    (h : (start host files examples device).2.1 = .ok e) : e.script = ([], false) := by
  obtain ⟨settings, kept, font, hm⟩ := start_eq h
  exact script_congr hm

/-- No unsaved text is discarded without consent. Whatever the user does and answers, whatever is recorded and
whatever becomes of the files: as long as the script does not count as modified, it is the text of the last script that
was opened or saved with success, or empty if there was none. What succeeds leaves the text that was opened or saved,
not modified. What is refused, cancelled or fails leaves the script as it was, and nothing else lets a modified script
count as unmodified. A replacement asks about a modified script and changes it only with consent. -/
theorem unsaved_text_is_kept {host : Host} {files : Files} {examples : Option Files} {device : Device}
    (h : (start host files examples device).2.1 = .ok e) (doings : List Doing) :
    let reached := e.perform doings
    (e.text = [] ∧ e.modified = false) ∧
    (reached.modified = false → reached.text = e.settled [] doings) ∧
    (∀ d text, reached.settles? d = some text → (reached.act d).text = text ∧ (reached.act d).modified = false) ∧
    (∀ d, reached.settles? d = none → (reached.modified = true → (reached.act d).modified = true) ∧
      (d.handlesFile = true → (reached.act d).text = reached.text ∧ (reached.act d).modified = reached.modified)) ∧
    ∀ replacement consent, let next := reached.act (.replace replacement consent)
      next.events = (if reached.modified then reached.events.push (.question "Unsaved Changes") else reached.events) ∧
      (next.text ≠ reached.text ∨ next.modified ≠ reached.modified → reached.modified = false ∨ consent = true) := by
  intro reached
  obtain ⟨hempty, hunmodified⟩ := Prod.mk.inj (start_script h)
  refine ⟨⟨hempty, hunmodified⟩, settled_perform (fun _ => hempty) doings, fun d text => act_of_settles, ?_, ?_⟩
  · intro d hs
    refine ⟨fun hm => ?_, fun hd => act_of_unsettled hd hs⟩
    rcases heeds_of_unsettled hs with hmodified | hscript
    · exact hmodified
    · exact (Prod.mk.inj hscript).2.trans hm
  · intro replacement consent next
    obtain ⟨file, hmuted⟩ := reached.muted_replace replacement consent
    refine ⟨congrArg Editor.events hmuted, fun hchanged => ?_⟩
    cases hm : reached.modified with
    | false => exact .inl rfl
    | true =>
      cases consent with
      | true => exact .inr rfl
      | false =>
        have hrefused : reached.settles? (.replace replacement false) = none := by simp [settles?, hm]
        obtain ⟨htext, hmodified⟩ := act_of_unsettled rfl hrefused
        rcases hchanged with hne | hne
        · exact absurd htext hne
        · exact absurd hmodified hne

/-- A script is saved and goes on being edited. An empty one is refused, a file is not there, and a recorded script is
added; then the saved script is opened again with consent. -/
theorem saved_script_is_opened_again :
    let e := (start .plain [] none {}).2.1.toOption.getD {}
    let doings : List Doing := [.type (.ofChars "click".toList), .saveAs (some "a"), .type (.ofChars "wait 1".toList), .replace .empty false,
      .replace (.file (some "b")) true, .beside .record, .beside (.put "goback"), .beside .tick]
    let reached := e.perform doings
    let opened := reached.act (.replace (.file (some "a")) true)
    (start .plain [] none {}).2.1 = .ok e ∧ reached.text = .ofChars "wait 1\ngoback\n".toList ∧ reached.modified = true ∧
      opened.text = .ofChars "click".toList ∧ opened.modified = false := by
  intro e doings reached opened
  have hstart : (start .plain [] none {}).2.1 = .ok e := start_ok (by decide +kernel)
  have hreached : reached.text = .ofChars "wait 1\ngoback\n".toList ∧ reached.modified = true ∧
      reached.settles? (.replace (.file (some "a")) true) = some (.ofChars "click".toList) := by decide +kernel
  obtain ⟨htext, hmodified, hsettles⟩ := hreached
  exact ⟨hstart, htext, hmodified, (unsaved_text_is_kept hstart doings).2.2.1 _ _ hsettles⟩

end Editor

end PointerScript
