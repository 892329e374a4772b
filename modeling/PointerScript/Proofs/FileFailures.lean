import PointerScript.Proofs.UnsavedText

/-! Files that cannot be used. A script that cannot be opened leaves the editor as it was. One that cannot be saved
keeps its text and still counts as modified, but the file that was chosen for it has become its file all the same, so
that later it is saved there without another question. -/

namespace PointerScript

namespace Editor

/-- What the user wants to be done with the script and a file: to open one, to save the script, or to save it in
another one. -/
inductive FileRequest where
  | reading (consent : Bool) (choice : Option String)
  | saving (choice : Option String)
  | savingAs (choice : Option String)

namespace FileRequest

def reads : FileRequest → Bool
  | reading _ _ => true
  | _ => false

def path? (e : Editor) : FileRequest → Option String
  | reading consent choice => if !e.modified || consent then choice else none
  | saving choice => e.file <|> choice
  | savingAs choice => choice

/-- What keeps a file from being read, or from being written with the script, if anything does. -/
def trouble? (e : Editor) (path : String) : FileRequest → Option FileFault
  | reading _ _ =>
    match e.files.readText path with
    | .ok _ => none
    | .error fault => some fault
  | _ => (e.files.writePieces path [e.text]).2

end FileRequest

/-- What becomes of the editor, and how the request failed. -/
def request (e : Editor) : FileRequest → Editor × Option EditorFault
  | .reading consent choice => e.openFile consent choice
  | .saving choice => e.saveFile choice
  | .savingAs choice => e.saveFileAs choice

theorem saveTo_fault (e : Editor) (path : String) :
    (e.saveTo path).2 = (e.files.writePieces path [e.text]).2.map .file := by
  rw [saveTo]
  dsimp only
  rcases e.files.writePieces path [e.text] with ⟨files, _ | cause⟩ <;> rfl

/-- A request fails exactly if there is a file to be used that cannot be opened, read, decoded, encoded or written. -/
theorem request_fault (e : Editor) (r : FileRequest) :
    (e.request r).2 = ((r.path? e).bind fun path => r.trouble? e path).map .file := by
  cases r with
  | reading consent choice =>
    simp only [request, openFile, confirmDiscard_eq, FileRequest.path?]
    cases !e.modified || consent with
    | false => rfl
    | true =>
      cases choice with
      | none => rfl
      | some path =>
        simp only [show e.asked.files = e.files from rfl, if_true, Option.bind_some, FileRequest.trouble?]
        cases e.files.readText path <;> rfl
  | saving choice =>
    rw [request, saveFile, FileRequest.path?]
    cases e.file <|> choice with
    | none => rfl
    | some path => exact e.saveTo_fault path
  | savingAs choice =>
    cases choice with
    | none => rfl
    | some path => exact e.saveTo_fault path

variable {e : Editor} {path : String} {cause : FileFault}

theorem saveTo_of_trouble (h : (e.files.writePieces path [e.text]).2 = some cause) :
    ∃ files, (e.saveTo path).1 = { e with file := some path, files := files } := by
  rw [saveTo]
  dsimp only
  generalize e.files.writePieces path [e.text] = written at h ⊢
  obtain ⟨files, fault⟩ := written
  obtain rfl : fault = some cause := h
  exact ⟨files, rfl⟩

/-- A file that cannot be opened leaves the editor as it was, but for the question about changes. A file that cannot be
written has become the file of the script. -/
theorem request_of_trouble {r : FileRequest} (hp : r.path? e = some path) (hc : r.trouble? e path = some cause) :
    ∃ files, (e.request r).1 = if r.reads then e.asked else { e with file := some path, files := files } := by
  cases r with
  | reading consent choice =>
    refine ⟨e.files, ?_⟩
    simp only [FileRequest.path?, FileRequest.trouble?] at hp hc
    split at hp
    · rename_i hallowed
      subst hp
      simp only [request, openFile, confirmDiscard_eq, hallowed, show e.asked.files = e.files from rfl]
      cases hread : e.files.readText path with
      | ok text => simp [hread] at hc
      | error other => rfl
    · cases hp
  | saving choice =>
    rw [FileRequest.path?] at hp
    rw [request, saveFile, hp]
    exact saveTo_of_trouble hc
  | savingAs choice =>
    obtain rfl : choice = some path := hp
    exact saveTo_of_trouble hc

/-- What a file that cannot be used leaves of the editor. The text of the script is the same, and whether it counts as
modified. The file of the script is the same if one was to be opened, or if the script was to be saved in its own. If it
was to be saved in another one, that one is now the file of the script, and the script is saved there the next time,
whatever it has become, without another question. -/
theorem file_failure_moves_only_the_file {r : FileRequest} {fault : EditorFault}
    (h : (e.request r).2 = some fault) :
    let left := (e.request r).1
    left.text = e.text ∧ left.modified = e.modified ∧
    ∃ path cause, r.path? e = some path ∧ r.trouble? e path = some cause ∧ fault = .file cause ∧
      (left.file = e.file ↔ r.reads = true ∨ e.file = some path) ∧
      (r.reads = false → left.file = some path ∧
        ∀ text choice, (left.setText text).saveFile choice = (left.setText text).saveTo path) := by
  rw [request_fault, Option.map_eq_some_iff] at h
  obtain ⟨cause, hcause, rfl⟩ := h
  obtain ⟨path, hpath, htrouble⟩ := Option.bind_eq_some_iff.mp hcause
  obtain ⟨files, hleft⟩ := request_of_trouble hpath htrouble
  intro left
  rw [show left = _ from hleft]
  cases hr : r.reads with
  | true => exact ⟨rfl, rfl, path, cause, hpath, htrouble, rfl, by simp [asked], by simp⟩
  | false =>
    refine ⟨rfl, rfl, path, cause, hpath, htrouble, rfl, ?_, fun _ => ⟨rfl, fun text choice => rfl⟩⟩
    simp [eq_comm]

/-- A script is to be saved where no directory is: it has a file from then on. -/
theorem failed_saving_gives_file :
    let e : Editor := { text := .ofChars "click".toList, modified := true }
    let saved := e.request (.savingAs (some "no/a"))
    saved.2 = some (.file (.notFound "no/a")) ∧ saved.1.text = e.text ∧ saved.1.modified = true ∧
      e.file = none ∧ saved.1.file = some "no/a" := by
  decide +kernel

/-- A file that is not there cannot be opened, and the script has no file as before. -/
theorem missing_file_leaves_script :
    let e : Editor := { text := .ofChars "click".toList, modified := true }
    let opened := e.request (.reading true (some "a"))
    opened.2 = some (.file (.notFound "a")) ∧ opened.1.text = e.text ∧ opened.1.modified = e.modified ∧
      opened.1.file = e.file := by
  intro e opened
  have hfault : opened.2 = some (.file (.notFound "a")) := by decide +kernel
  obtain ⟨htext, hmodified, path, cause, _, _, _, hfile, _⟩ := file_failure_moves_only_the_file hfault
  exact ⟨hfault, htext, hmodified, hfile.mpr (.inl rfl)⟩

end Editor

end PointerScript
