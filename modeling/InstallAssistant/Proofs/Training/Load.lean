import InstallAssistant.Training.Record
import InstallAssistant.Proofs.Host.Session
import InstallAssistant.Proofs.Text

/-!
# InstallAssistant.Proofs.Training.Load

What is loaded: of the lines in the data files that are not blank, each holds an
example or is counted as skipped, in the order of the files and of the lines in
them (`perform_load_eq_ok_iff`).  Loading changes nothing (`quiet_load`).
-/

namespace InstallAssistant.Training

open Host

/-! ## lines that are not blank -/

/-- A line of a data file that is not blank, trimmed, and where it stands. -/
structure Line where
  origin : String
  text : String
deriving DecidableEq, Repr

namespace Line

/-- The example that a line holds. -/
def example? (l : Line) : Option Example := (Example.ofLine l.text l.origin).toOption

/-- The lines of a file that are not blank, if its lines are numbered from `n`. -/
def numbered (name : String) (n : Nat) (lines : List (List Char)) : List Line :=
  (lines.zipIdx n).filterMap fun (line, k) =>
    (Text.nonBlank? (String.ofList line)).map fun text => ⟨s!"{name}:{k}", text⟩

/-- The lines in the bytes of a file that are not blank. -/
def ofFile (path : String) (bytes : List UInt8) : List Line :=
  numbered ((Path.fileName? path).getD "") 1 ((byteLines [] bytes).filterMap Text.Utf8.decode?)

/-- The lines in some files of a directory that are not blank. -/
def ofFiles (d : Directory) (files : List String) : List Line :=
  files.flatMap fun path => ofFile path ((d.read? path).getD [])

end Line

/-- What is loaded, with some more lines. -/
def Loaded.add (loaded : Loaded) (lines : List Line) : Loaded :=
  { loaded with
    examples := loaded.examples ++ lines.filterMap Line.example?
    skipped := loaded.skipped + lines.countP fun l => l.example?.isNone }

theorem Loaded.add_nil (loaded : Loaded) : loaded.add [] = loaded := by
  simp [add]

theorem Loaded.add_add (loaded : Loaded) (lines more : List Line) :
    (loaded.add lines).add more = loaded.add (lines ++ more) := by
  simp [add, Nat.add_assoc]

/-! ## one file -/

theorem nonBlank?_ofList (line : List Char) :
    Text.nonBlank? (String.ofList line) =
      if Text.isBlankText line then none else some (Text.trim (String.ofList line)) := by
  by_cases hblank : Text.isBlankText line = true
  · have hstart : Text.trimStart line = [] :=
      List.dropWhile_eq_nil_iff.mpr (List.all_eq_true.mp hblank)
    rw [if_pos hblank, Text.nonBlank?_eq_none_iff, String.toList_ofList, Text.trimChars, hstart]
    rfl
  · rw [if_neg hblank, Text.nonBlank?_eq_some_iff, Text.trim, String.toList_ofList,
      String.toList_ofList]
    refine ⟨rfl, fun hnil => hblank ?_⟩
    exact List.all_eq_true.mpr (Text.isBlank_of_trimChars_eq_nil hnil)

theorem Line.numbered_cons (name : String) (n : Nat) (line : List Char) (lines : List (List Char)) :
    numbered name n (line :: lines) =
      if Text.isBlankText line then numbered name (n + 1) lines
      else ⟨s!"{name}:{n}", Text.trim (String.ofList line)⟩ :: numbered name (n + 1) lines := by
  simp only [numbered, List.zipIdx_cons, List.filterMap_cons, nonBlank?_ofList line]
  by_cases hblank : Text.isBlankText line = true
  · simp only [hblank, if_true, Option.map_none]
  · simp only [hblank, Bool.false_eq_true, if_false, Option.map_some]

theorem examplesOf_eq (name : String) (n : Nat) (lines : List (List Char)) :
    examplesOf name n lines =
      ((Line.numbered name n lines).filterMap Line.example?,
        (Line.numbered name n lines).countP fun l => l.example?.isNone) := by
  induction lines generalizing n with
  | nil => rfl
  | cons line lines ih =>
      rw [examplesOf, ih, Line.numbered_cons]
      by_cases hblank : Text.isBlankText line = true
      · simp only [hblank, if_true]
      · simp only [hblank, Bool.false_eq_true, if_false, List.filterMap_cons, List.countP_cons,
          Line.example?]
        cases Example.ofLine (Text.trim (String.ofList line)) s!"{name}:{n}" <;> rfl

/-- Whether every line in some bytes spells a text. -/
def Readable (bytes : List UInt8) : Prop :=
  ∀ line ∈ byteLines [] bytes, (Text.Utf8.decode? line).isSome

theorem unreadableLine?_eq_none_iff {n : Nat} {lines : List (List UInt8)} :
    unreadableLine? n lines = none ↔ ∀ line ∈ lines, (Text.Utf8.decode? line).isSome := by
  induction lines generalizing n with
  | nil => simp [unreadableLine?]
  | cons line lines ih =>
      rw [unreadableLine?]
      cases h : Text.Utf8.decode? line <;> simp [h, ih]

theorem examplesOfBytes_eq_ok_iff {path : String} {bytes : List UInt8}
    {found : List Example × Nat} :
    examplesOfBytes path bytes = .ok found ↔ Readable bytes ∧
      found = ((Line.ofFile path bytes).filterMap Line.example?,
        (Line.ofFile path bytes).countP fun l => l.example?.isNone) := by
  rw [Readable, ← @unreadableLine?_eq_none_iff 1, examplesOfBytes]
  cases unreadableLine? 1 (byteLines [] bytes) with
  | some n => simp
  | none => simp [examplesOf_eq, Line.ofFile, @eq_comm _ found]

/-! ## all files -/

section

variable {input : List UInt8} {time : String} {s s' : Session} {loaded loaded' : Loaded}
  {path : String}

theorem perform_loadFile_eq_ok_iff :
    perform (loadFile (ofDirectory input time) loaded path) s = (.ok loaded', s') ↔
      s' = s ∧ ∃ bytes, s.directory.read? path = some bytes ∧ Readable bytes ∧
        loaded' = loaded.add (Line.ofFile path bytes) := by
  rw [loadFile, perform_bind, perform_lift]
  have hrun : ((ofDirectory input time).readBytes path).run s = (s.directory.read? path, s) := rfl
  rw [hrun]
  cases s.directory.read? path with
  | none => simp
  | some bytes =>
      simp only [perform_bind_eq_ok_iff, perform_mk_pure, perform_pure, Prod.mk.injEq,
        examplesOfBytes_eq_ok_iff, Except.ok.injEq, Option.some.injEq]
      constructor
      · rintro ⟨_, _, ⟨⟨hreadable, rfl⟩, rfl⟩, rfl, rfl⟩
        exact ⟨rfl, bytes, rfl, hreadable, rfl⟩
      · rintro ⟨rfl, _, rfl, hreadable, rfl⟩
        exact ⟨_, _, ⟨⟨hreadable, rfl⟩, rfl⟩, rfl, rfl⟩

theorem perform_foldlM_loadFile_eq_ok_iff {files : List String} :
    perform (files.foldlM (loadFile (ofDirectory input time)) loaded) s = (.ok loaded', s') ↔
      s' = s ∧ (∀ path ∈ files, ∃ bytes, s.directory.read? path = some bytes ∧ Readable bytes) ∧
        loaded' = loaded.add (Line.ofFiles s.directory files) := by
  induction files generalizing loaded with
  | nil => simp [Line.ofFiles, Loaded.add_nil, and_comm, @eq_comm _ s', @eq_comm _ loaded']
  | cons path files ih =>
      rw [List.foldlM_cons, perform_bind_eq_ok_iff]
      simp only [perform_loadFile_eq_ok_iff]
      constructor
      · rintro ⟨_, _, ⟨rfl, bytes, hread, hreadable, rfl⟩, hrest⟩
        obtain ⟨rfl, hfiles, rfl⟩ := ih.mp hrest
        refine ⟨rfl, List.forall_mem_cons.mpr ⟨⟨bytes, hread, hreadable⟩, hfiles⟩, ?_⟩
        rw [Loaded.add_add, Line.ofFiles, Line.ofFiles, List.flatMap_cons, hread, Option.getD_some]
      · rintro ⟨rfl, hall, rfl⟩
        obtain ⟨⟨bytes, hread, hreadable⟩, hfiles⟩ := List.forall_mem_cons.mp hall
        refine ⟨_, _, ⟨rfl, bytes, hread, hreadable, rfl⟩, ih.mpr ⟨rfl, hfiles, ?_⟩⟩
        rw [Loaded.add_add, Line.ofFiles, Line.ofFiles, List.flatMap_cons, hread, Option.getD_some]

theorem quiet_dataFiles (path : String) : Quiet (dataFiles (ofDirectory input time) path) := by
  refine .bind (.lift fun _ => rfl) fun kind => ?_
  match kind with
  | none => exact .throw _
  | some .file => exact .pure _
  | some .folder =>
      refine .bind (.lift fun _ => rfl) fun names => ?_
      match names with
      | none => exact .throw _
      | some names => exact .filterM (fun _ => .bind (.lift fun _ => rfl) fun _ => .pure _) _

theorem quiet_load (path : String) : Quiet (load (ofDirectory input time) path) := by
  refine .bind (quiet_dataFiles path) fun files => .foldlM (fun loaded path => ?_) _ _
  refine .bind (.lift fun _ => rfl) fun bytes => ?_
  match bytes with
  | none => exact .throw _
  | some bytes => exact .bind (.ofExcept _) fun _ => .pure _

/-- **What is loaded**: the files under the path, and what their lines hold. -/
theorem perform_load_eq_ok_iff :
    perform (load (ofDirectory input time) path) s = (.ok loaded, s') ↔
      s' = s ∧ ∃ files, perform (dataFiles (ofDirectory input time) path) s = (.ok files, s) ∧
        (∀ file ∈ files, ∃ bytes, s.directory.read? file = some bytes ∧ Readable bytes) ∧
        loaded = Loaded.add ⟨files, [], 0⟩ (Line.ofFiles s.directory files) := by
  rw [load, perform_bind_eq_ok_iff]
  constructor
  · rintro ⟨files, s₁, hfiles, hload⟩
    obtain rfl := (quiet_dataFiles path).eq_of_perform hfiles
    obtain ⟨rfl, hread, rfl⟩ := perform_foldlM_loadFile_eq_ok_iff.mp hload
    exact ⟨rfl, files, hfiles, hread, rfl⟩
  · rintro ⟨rfl, files, hfiles, hread, rfl⟩
    exact ⟨files, s', hfiles, perform_foldlM_loadFile_eq_ok_iff.mpr ⟨rfl, hread, rfl⟩⟩

end

end InstallAssistant.Training
