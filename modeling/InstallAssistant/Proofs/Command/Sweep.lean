import InstallAssistant.Proofs.Command.Compile
import InstallAssistant.Proofs.Command.Rows
import InstallAssistant.Proofs.Host.Folder

/-!
# InstallAssistant.Proofs.Command.Sweep

A sweep over a data set that was compiled before.

1. The data set is found again as it was compiled (`perform_compiledDataset`).
2. Each run has a folder of its own, so no plan displaces another one
   (`read?_of_perform_runs`), and all plans can be written where each of them can
   (`exists_perform_runs`).
3. So the plans of a sweep tell the same of the data as the plan of the compilation
   (`compileWith_sweep`).
-/

namespace InstallAssistant

open Host

namespace Training

/-! ## plans without evaluation -/

/-- Where nothing is held out, a plan names no file for it and wants no evaluation. -/
theorem Plan.member?_of_not_hasEval {p : Plan} (h : p.hasEval = false) (time : String) :
    (p.toJson time).member? "eval_file" = some .null ∧
      (p.toJson time).member? "eval_strategy" = some (.string "no") ∧
      (p.toJson time).member? "load_best_model_at_end" = some (.bool false) := by
  have hmembers : (p.toJson time).member? "eval_file" = some (.ofText? p.evalFile) ∧
      (p.toJson time).member? "eval_strategy" = some (.string p.evalStrategy) ∧
      (p.toJson time).member? "load_best_model_at_end" = some (.bool p.hasEval) := ⟨rfl, rfl, rfl⟩
  rwa [Plan.evalFile, Plan.evalStrategy, h] at hmembers

namespace Preset

/-! ## names of runs -/

theorem isName_runName (preset : Preset) : ∀ h ∈ preset.grid, Path.IsName h.runName := by
  cases preset <;> decide +kernel

theorem grid_ne_nil (preset : Preset) : preset.grid ≠ [] := by
  have hlength : 0 < preset.grid.length := by cases preset <;> decide +kernel
  exact List.length_pos_iff.mp hlength

theorem sweepFile_notMem (preset : Preset) :
    "sweep.json" ∉ preset.grid.map Hyperparameters.runName := by
  cases preset <;> decide +kernel

theorem nodup_runNames (preset : Preset) : (preset.grid.map Hyperparameters.runName).Nodup := by
  cases preset <;> decide +kernel

end Preset

end Training

namespace Command

open Training

section

variable {input : List UInt8} {time time' : String} {c : Config} {folder output : String}
  {s s' : Session} {d : Compiled}

/-! ## the data of a sweep -/

theorem perform_countExamples {path : String} {rows : List Row}
    (h : s.directory.read? path = some (Text.Utf8.encode (rowLines rows))) :
    perform (countExamples (ofDirectory input time) path) s = (.ok rows.length, s) := by
  rw [countExamples, perform_bind, perform_needText, h, Option.bind_some, Text.Utf8.encode,
    Text.Utf8.decode?_encodeChars]
  simp only [String.ofList_toList, exampleCount_rowLines]
  rfl

theorem perform_exists_of_read? {path : String} {bytes : List UInt8}
    (h : s.directory.read? path = some bytes) :
    perform (liftM ((ofDirectory input time).exists? path)) s = (.ok true, s) := by
  rw [perform_exists, Directory.kind?, Option.isSome_map]
  rw [Directory.read?] at h
  split at h
  · next hentry => rw [hentry]; rfl
  · cases h

/-- **The data set that was compiled is found again.** -/
theorem perform_compiledDataset (h : d.Written c folder time' s.directory)
    (htrain : d.split.train ≠ []) :
    perform (compiledDataset (ofDirectory input time) c folder) s =
      (.ok (d.plan c folder).data, s) := by
  have hpos : d.split.train.length ≠ 0 := by simpa using htrain
  rw [compiledDataset]
  simp only [perform_bind, perform_exists_of_read? h.train, perform_countExamples h.train,
    perform_exists_of_read? h.eval, perform_countExamples h.eval, if_true, perform_pure,
    if_neg hpos]
  rfl

/-! ## one run -/

/-- Where the plan of a run is. -/
def planPath (output name : String) : String := Path.join (Path.join output name) planFile

variable {p : Plan} {plans : List Plan}

theorem exists_of_perform_writePlan
    (h : perform (writePlan (ofDirectory input time) output p) s = (.ok (), s')) :
    ∃ d₁, s.directory.make? (Path.join output p.runName) = some d₁ ∧
      d₁.write? (planPath output p.runName) (Text.Utf8.encode (p.toJson time).pretty) =
        some s'.directory := by
  rw [writePlan] at h
  obtain ⟨_, s₁, hmake, h₁⟩ := perform_bind_eq_ok_iff.mp h
  rw [perform_bind, perform_now] at h₁
  exact ⟨s₁.directory, make?_of_perform hmake, write?_of_perform h₁⟩

/-- A plan does not displace the plans of other runs. -/
theorem read?_of_perform_writePlan (hname : Path.IsName p.runName)
    (h : perform (writePlan (ofDirectory input time) output p) s = (.ok (), s'))
    {name : String} (hother : Path.IsName name) (hne : name ≠ p.runName) {bytes : List UInt8}
    (hread : s.directory.read? (planPath output name) = some bytes) :
    s'.directory.read? (planPath output name) = some bytes := by
  obtain ⟨d₁, hmake, hwrite⟩ := exists_of_perform_writePlan h
  obtain ⟨place, hplace, _⟩ := Directory.write?_eq_some_iff.mp hwrite
  have hapart : d₁.place? (planPath output name) ≠ d₁.place? (planPath output p.runName) := by
    rw [hplace]
    exact Directory.place?_join_join_ne hname hother isName_planFile (Ne.symm hne) hplace
  rw [Directory.read?_of_write?_ne hwrite hapart]
  exact (Directory.grows_of_make? hmake).read? hread

variable (input time) in
/-- **A run whose name is free gets its plan**, and nothing else changes. -/
theorem exists_perform_writePlan {home : List String} (hname : Path.IsName p.runName)
    (hhome : s.directory.home? output = some home)
    (hfree : s.directory.Free home p.runName planFile) :
    ∃ s', perform (writePlan (ofDirectory input time) output p) s = (.ok (), s') ∧
      s'.directory.home? output = some home ∧
      ∀ q, q ≠ home ++ [p.runName] → q ≠ home ++ [p.runName, planFile] →
        s'.directory.find? q = s.directory.find? q := by
  obtain ⟨d₁, d₂, hmake, hwrite, hhome, hsame⟩ :=
    Directory.exists_put hname isName_planFile hhome hfree (Text.Utf8.encode (p.toJson time).pretty)
  refine ⟨{ s with directory := d₂ }, ?_, hhome, hsame⟩
  rw [writePlan]
  simp only [writeJson, perform_bind, perform_needFolders, perform_now, perform_writeText, hmake,
    hwrite]

/-- What is made before a run only if it is not there need not be made. -/
theorem perform_writePlan_of_make? {folders : Directory}
    (hmake : s.directory.make? (Path.join output p.runName) =
      folders.make? (Path.join output p.runName))
    (h : perform (writePlan (ofDirectory input time) output p) { s with directory := folders } =
      (.ok (), s')) :
    perform (writePlan (ofDirectory input time) output p) s = (.ok (), s') := by
  rw [writePlan, perform_bind, perform_needFolders] at h ⊢
  rw [hmake]
  cases hfolders : folders.make? (Path.join output p.runName) with
  | none => simp [hfolders] at h
  | some d₁ =>
      simp only [hfolders] at h
      exact h

/-! ## all runs -/

/-- **Each run has its plan** when all are written, and the plans of other runs are as before. -/
theorem read?_of_perform_runs (hnames : ∀ p ∈ plans, Path.IsName p.runName)
    (hdistinct : (plans.map Plan.runName).Nodup)
    (h : perform (plans.forM (writePlan (ofDirectory input time) output)) s = (.ok (), s')) :
    (∀ p ∈ plans, s'.directory.read? (planPath output p.runName) =
      some (Text.Utf8.encode (p.toJson time).pretty)) ∧
    ∀ name bytes, Path.IsName name → name ∉ plans.map Plan.runName →
      s.directory.read? (planPath output name) = some bytes →
      s'.directory.read? (planPath output name) = some bytes := by
  induction plans generalizing s with
  | nil =>
      cases h
      exact ⟨nofun, fun _ _ _ _ hread => hread⟩
  | cons p plans ih =>
      obtain ⟨_, s₁, hfirst, hrest⟩ := perform_bind_eq_ok_iff.mp h
      obtain ⟨hname, hnames⟩ := List.forall_mem_cons.mp hnames
      obtain ⟨hnew, hdistinct⟩ := List.nodup_cons.mp hdistinct
      obtain ⟨hplans, hothers⟩ := ih hnames hdistinct hrest
      obtain ⟨d₁, _, hwrite⟩ := exists_of_perform_writePlan hfirst
      refine ⟨List.forall_mem_cons.mpr ⟨?_, hplans⟩, fun name bytes hother hnotMem hread => ?_⟩
      -- the plan of the first run outlasts the other runs, which have other names
      · exact hothers _ _ hname hnew (Directory.read?_of_write? hwrite)
      · simp only [List.map_cons, List.mem_cons, not_or] at hnotMem
        exact hothers _ _ hother hnotMem.2
          (read?_of_perform_writePlan hname hfirst hother hnotMem.1 hread)

variable (input time) in
/-- **Runs whose names are free get their plans**, all of them, and nothing else changes. -/
theorem exists_perform_runs {home : List String} (hnames : ∀ p ∈ plans, Path.IsName p.runName)
    (hdistinct : (plans.map Plan.runName).Nodup) (hhome : s.directory.home? output = some home)
    (hfree : ∀ p ∈ plans, s.directory.Free home p.runName planFile) :
    ∃ s', perform (plans.forM (writePlan (ofDirectory input time) output)) s = (.ok (), s') ∧
      s'.directory.home? output = some home ∧
      ∀ q, (∀ p ∈ plans, q ≠ home ++ [p.runName] ∧ q ≠ home ++ [p.runName, planFile]) →
        s'.directory.find? q = s.directory.find? q := by
  induction plans generalizing s with
  | nil => exact ⟨s, rfl, hhome, fun _ _ => rfl⟩
  | cons p plans ih =>
      obtain ⟨hname, hnames⟩ := List.forall_mem_cons.mp hnames
      obtain ⟨hnew, hdistinct⟩ := List.nodup_cons.mp hdistinct
      obtain ⟨hfirst, hfree⟩ := List.forall_mem_cons.mp hfree
      obtain ⟨s₁, hwrite, hhome₁, hsame₁⟩ := exists_perform_writePlan input time hname hhome hfirst
      have hfree₁ : ∀ other ∈ plans, s₁.directory.Free home other.runName planFile := by
        intro other hother
        refine (hfree other hother).put (fun heq => hnew ?_) hsame₁
        exact List.mem_map.mpr ⟨other, hother, heq⟩
      obtain ⟨s', hrest, hhome', hsame'⟩ := ih hnames hdistinct hhome₁ hfree₁
      refine ⟨s', perform_bind_eq_ok_iff.mpr ⟨(), s₁, hwrite, hrest⟩, hhome', fun q hq => ?_⟩
      obtain ⟨hqp, hq⟩ := List.forall_mem_cons.mp hq
      rw [hsame' q hq, hsame₁ q hqp.1 hqp.2]

theorem failsByIo_writePlan (p : Plan) :
    FailsByIo (writePlan (ofDirectory input time) output p) :=
  .bind failsByIo_needFolders fun _ => .bind (.lift _) fun _ => failsByIo_writeText

/-! ## the runs of a sweep -/

/-- Writes plans, and the list of their names. -/
def writeRuns (h : Host (StateM Session)) (output : String) (plans : List Plan) :
    Task (StateM Session) Unit := do
  plans.forM (writePlan h output)
  writeJson h (Path.join output "sweep.json") (.strings (plans.map Plan.runName))
  h.printLine s!"{plans.length} training plans -> {output}"

theorem failsByIo_writeRuns (plans : List Plan) :
    FailsByIo (writeRuns (ofDirectory input time) output plans) :=
  .bind (.forM failsByIo_writePlan plans) fun _ => .bind failsByIo_writeText fun _ => .lift _

theorem isName_sweepFile : Path.IsName "sweep.json" := by decide

theorem read?_of_perform_writeRuns (hnames : ∀ p ∈ plans, Path.IsName p.runName)
    (hdistinct : (plans.map Plan.runName).Nodup)
    (h : perform (writeRuns (ofDirectory input time) output plans) s = (.ok (), s')) :
    ∀ p ∈ plans, s'.directory.read? (planPath output p.runName) =
      some (Text.Utf8.encode (p.toJson time).pretty) := by
  intro p hp
  obtain ⟨_, s₁, hruns, h₁⟩ := perform_bind_eq_ok_iff.mp h
  obtain ⟨_, s₂, hlist, h₂⟩ := perform_bind_eq_ok_iff.mp h₁
  rw [perform_printLine] at h₂
  cases h₂
  have hlist := write?_of_perform hlist
  obtain ⟨place, hplace, _⟩ := Directory.write?_eq_some_iff.mp hlist
  have hapart : s₁.directory.place? (planPath output p.runName) ≠
      s₁.directory.place? (Path.join output "sweep.json") := by
    rw [hplace]
    exact Directory.place?_join_ne_join_join (hnames p hp) isName_sweepFile isName_planFile hplace
  rw [Directory.read?_of_write?_ne hlist hapart]
  exact (read?_of_perform_runs hnames hdistinct hruns).1 p hp

/-- Each plan could be written by itself, and so could the list. -/
structure AcceptsRuns (directory : Directory) (output : String) (names : List String) : Prop where
  list : directory.Accepts output "sweep.json"
  plans : ∀ name ∈ names, directory.Accepts (Path.join output name) planFile

/-- **Where each plan can be written, all of them can.** -/
theorem exists_perform_writeRuns (hne : plans ≠ []) (hnames : ∀ p ∈ plans, Path.IsName p.runName)
    (hdistinct : (plans.map Plan.runName).Nodup) (hlist : "sweep.json" ∉ plans.map Plan.runName)
    (h : AcceptsRuns s.directory output (plans.map Plan.runName)) :
    ∃ s', perform (writeRuns (ofDirectory input time) output plans) s = (.ok (), s') := by
  obtain ⟨folders, hmake, place, hplace, hfolder⟩ := h.list
  obtain ⟨home, hhome, hsame⟩ := Directory.exists_home?_of_make? hmake
  have hfree : ∀ p ∈ plans, folders.Free home p.runName planFile := by
    intro p hp
    obtain ⟨d', hmake', hwritable⟩ := h.plans p.runName (List.mem_map_of_mem hp)
    rw [hsame p.runName (hnames p hp)] at hmake'
    exact (Directory.accepts_join_iff (hnames p hp) isName_planFile hhome).mp
      ⟨d', hmake', hwritable⟩
  -- the first run makes the folder of all runs, so they go as if it had been there
  obtain ⟨s₁, hruns, hhome₁, hsame₁⟩ := exists_perform_runs input time
    (s := { s with directory := folders }) hnames hdistinct hhome hfree
  have hruns : perform (plans.forM (writePlan (ofDirectory input time) output)) s =
      (.ok (), s₁) := by
    cases plans with
    | nil => contradiction
    | cons p plans =>
        obtain ⟨_, s₂, hfirst, hrest⟩ := perform_bind_eq_ok_iff.mp hruns
        have hmake := hsame p.runName (hnames p List.mem_cons_self)
        exact perform_bind_eq_ok_iff.mpr ⟨(), s₂, perform_writePlan_of_make? hmake hfirst, hrest⟩
  have hwritable : s₁.directory.Writable (Path.join output "sweep.json") := by
    rw [Directory.place?_join _ _ isName_sweepFile, hhome] at hplace
    obtain rfl := Option.some.inj hplace
    refine ⟨home ++ ["sweep.json"], ?_, ?_⟩
    · rw [Directory.place?_join _ _ isName_sweepFile, hhome₁]
      rfl
    · rw [Directory.isFolder, hsame₁ _ fun p hp => ⟨fun heq => hlist ?_, by simp⟩]
      · exact hfolder
      · obtain ⟨hname, _⟩ := List.cons.inj (List.append_cancel_left heq)
        exact List.mem_map.mpr ⟨p, hp, hname.symm⟩
  obtain ⟨d₂, hwrite⟩ := Directory.exists_write? hwritable
    (Text.Utf8.encode (Json.strings (plans.map Plan.runName)).pretty)
  rw [writeRuns, perform_bind, hruns]
  simp only [writeJson, perform_bind, perform_writeText, perform_printLine, hwrite]
  exact ⟨_, rfl⟩

/-! ## sweeps -/

/-- What a plan tells of its data. -/
def dataKeys : List String :=
  ["train_file", "eval_file", "train_examples", "eval_examples", "eval_strategy",
    "load_best_model_at_end"]

/-- Two plans, as they are written, that tell the same of their data. -/
def SameData (v w : Json) : Prop :=
  ∀ key ∈ dataKeys, ∃ x, v.member? key = some x ∧ w.member? key = some x

namespace Compiled

/-- The plan of a run over a data set that was compiled. -/
def run (d : Compiled) (c : Config) (folder : String) (h : Hyperparameters) : Plan :=
  { d.plan c folder with hyperparameters := h }

theorem sameData_run (d : Compiled) (c : Config) (folder : String) (h : Hyperparameters)
    (time time' : String) :
    SameData ((d.run c folder h).toJson time) ((d.plan c folder).toJson time') := by
  simp only [SameData, dataKeys, List.forall_mem_cons]
  exact ⟨⟨_, rfl, rfl⟩, ⟨_, rfl, rfl⟩, ⟨_, rfl, rfl⟩, ⟨_, rfl, rfl⟩, ⟨_, rfl, rfl⟩,
    ⟨_, rfl, rfl⟩, nofun⟩

theorem runName_run (d : Compiled) (c : Config) (folder : String) (h : Hyperparameters) :
    (d.run c folder h).runName = h.runName := rfl

theorem map_runName_run (d : Compiled) (c : Config) (folder : String)
    (hs : List Hyperparameters) :
    (hs.map (d.run c folder)).map Plan.runName = hs.map Hyperparameters.runName :=
  List.map_map

theorem Built.labelsFit {compiler : Compiler} (h : d.Built c compiler) :
    ∀ r ∈ d.split.train ++ d.split.eval, r.LabelsFit := by
  intro r hr
  have hmem := (Split.divides_of_split h.split).perm.mem_iff.mp hr
  rw [Compiler.rows_compileAll, List.mem_filterMap] at hmem
  obtain ⟨e, _, hrow⟩ := hmem
  exact Compiler.labelsFit_of_compileExample (compiler.row?_eq_some_iff.mp hrow)

end Compiled

variable (input time output) in
/-- A sweep writes the runs of the data set that was compiled. -/
theorem perform_sweep (preset : Preset) (h : d.Written c folder time' s.directory)
    (htrain : d.split.train ≠ []) :
    perform (sweep (ofDirectory input time) c preset folder output) s =
      perform (writeRuns (ofDirectory input time) output (preset.grid.map (d.run c folder))) s := by
  have hsweep : sweep (ofDirectory input time) c preset folder output =
      compiledDataset (ofDirectory input time) c folder >>= fun data =>
        writeRuns (ofDirectory input time) output (preset.grid.map fun hyperparameters =>
          { baseModel := c.model.baseModel, settings := c.training, hyperparameters, data }) := rfl
  rw [hsweep, perform_bind, perform_compiledDataset h htrain]
  rfl

/-! ## what is read back -/

/-- The files of a data set hold its rows, one on each line, and its plan. -/
structure Compiled.ReadBack (d : Compiled) (c : Config) (folder time : String)
    (directory : Directory) : Prop where
  train : readRows? directory (Path.join folder trainFile) =
    some (d.split.train.map fun r => some { r with promptLength := 0 })
  eval : readRows? directory (Path.join folder evalFile) =
    some (d.split.eval.map fun r => some { r with promptLength := 0 })
  plan : directory.read? (Path.join folder planFile) =
    some (Text.Utf8.encode ((d.plan c folder).toJson time).pretty)

/-- What a sweep over a data set comes to: it succeeds where its files can be written, each of its
plans then tells the same of the data as the plan of the compilation, and it fails for no other
reason than a file. -/
structure Compiled.Sweeps (d : Compiled) (c : Config) (folder time : String) (s : Session)
    (input : List UInt8) (time' : String) (preset : Preset) (output : String) : Prop where
  succeeds : AcceptsRuns s.directory output (preset.grid.map Hyperparameters.runName) →
    ∃ s', perform (sweep (ofDirectory input time') c preset folder output) s = (.ok (), s')
  plans : ∀ s', perform (sweep (ofDirectory input time') c preset folder output) s = (.ok (), s') →
    ∀ h ∈ preset.grid,
      s'.directory.read? (planPath output h.runName) =
        some (Text.Utf8.encode ((d.run c folder h).toJson time').pretty) ∧
      SameData ((d.run c folder h).toJson time') ((d.plan c folder).toJson time)
  fails : ∀ f s', perform (sweep (ofDirectory input time') c preset folder output) s =
    (.error f, s') → Failure.io ∈ f.causes

theorem Compiled.Written.sweeps (h : d.Written c folder time s.directory)
    (htrain : d.split.train ≠ []) (input : List UInt8) (time' : String) (preset : Preset)
    (output : String) : d.Sweeps c folder time s input time' preset output := by
  have hsweep := perform_sweep input time' output preset h htrain
  have hnames : ∀ p ∈ preset.grid.map (d.run c folder), Path.IsName p.runName :=
    List.forall_mem_map.mpr preset.isName_runName
  have hdistinct : ((preset.grid.map (d.run c folder)).map Plan.runName).Nodup := by
    rw [d.map_runName_run]
    exact preset.nodup_runNames
  constructor
  · intro haccepts
    have hne : preset.grid.map (d.run c folder) ≠ [] := by simpa using preset.grid_ne_nil
    have hlist := preset.sweepFile_notMem
    rw [← d.map_runName_run c folder] at haccepts hlist
    rw [hsweep]
    exact exists_perform_writeRuns hne hnames hdistinct hlist haccepts
  · intro s' hperform hyper hhyper
    rw [hsweep] at hperform
    have hplan := read?_of_perform_writeRuns hnames hdistinct hperform (d.run c folder hyper)
      (List.mem_map_of_mem hhyper)
    rw [d.runName_run] at hplan
    exact ⟨hplan, d.sameData_run c folder hyper time' time⟩
  · intro f s' hperform
    rw [hsweep] at hperform
    exact failsByIo_writeRuns _ s f s' hperform

end

/-- **What a compilation writes is what a reader and a sweep get back**: the lines of its files are
the rows of the two parts, in their order, and the plans of every sweep over them tell the same of
the data as the plan of the compilation. -/
theorem compileWith_sweep (input : List UInt8) (time : String) (c : Config)
    {encoder : Task (StateM Session) Encoder} (hencoder : Quiet encoder) (data folder : String)
    (s s' : Session)
    (h : perform (compileWith (ofDirectory input time) c encoder data folder) s = (.ok (), s')) :
    ∃ d : Compiled, perform (compileData (ofDirectory input time) c encoder data) s = (.ok d, s) ∧
      d.ReadBack c folder time s'.directory ∧
      ∀ (input' : List UInt8) (time' : String) (preset : Preset) (output : String),
        d.Sweeps c folder time s' input' time' preset output := by
  obtain ⟨d, hdata, hwritten⟩ := perform_compileWith_eq_ok hencoder h
  obtain ⟨_, _, compiler, _, hbuilt⟩ := (perform_compileData_eq_ok_iff hencoder).mp hdata
  obtain ⟨htrain, heval⟩ := List.forall_mem_append.mp hbuilt.labelsFit
  exact ⟨d, hdata, ⟨readRows?_eq hwritten.train htrain, readRows?_eq hwritten.eval heval,
    hwritten.plan⟩, hwritten.sweeps (Split.train_ne_nil hbuilt.split hbuilt.rows)⟩

/-- The one row of the small data set is for training. -/
theorem length_split_greeting {maxLength : Nat} {d : Compiled}
    (h : perform (compileData (ofDirectory [] "now") (byteConfig maxLength)
      (Command.encoder (ofDirectory [] "now") (byteConfig maxLength)) "a.jsonl") greeting =
        (.ok d, greeting)) :
    d.split.train.length = 1 ∧ d.split.eval.length = 0 := by
  obtain ⟨_, hload, compiler, _, hbuilt⟩ := (perform_compileData_eq_ok_iff (quiet_encoder _)).mp h
  rw [perform_load_greeting] at hload
  have hloaded : d.loaded.examples = [greetingExample] := by
    rw [← Except.ok.inj (Prod.mk.inj hload).1]
  have hlength := Split.length_of_split hbuilt.split
  have htrain := List.length_pos_iff.mpr (Split.train_ne_nil hbuilt.split hbuilt.rows)
  have hrows : (compiler.compileAll d.loaded.examples).1.length ≤ 1 := by
    rw [Compiler.rows_compileAll, hloaded]
    exact List.length_filterMap_le _ _
  omega

/-- Everything is free for a sweep beside the small data set. -/
theorem acceptsRuns_greeting {directory : Directory}
    (h : ∀ q, q.head? ≠ some "out" → directory.find? q = greeting.directory.find? q) :
    AcceptsRuns directory "." (Preset.quick.grid.map Hyperparameters.runName) := by
  have hstem : Path.stem "." = ["."] := by decide +kernel
  have hhome : directory.home? "." = some [] := by
    rw [Directory.home?, hstem]
    rfl
  have hfree : ∀ name ∈ "sweep.json" :: Preset.quick.grid.map Hyperparameters.runName,
      name ≠ "out" ∧ greeting.directory.find? [name] = none ∧
        greeting.directory.find? [name, planFile] = none := by decide +kernel
  have hnone : ∀ name ∈ "sweep.json" :: Preset.quick.grid.map Hyperparameters.runName,
      directory.find? [name] = none ∧ directory.find? [name, planFile] = none := by
    intro name hname
    obtain ⟨hout, hfolder, hfile⟩ := hfree name hname
    rw [h _ (by simpa using hout), h _ (by simpa using hout)]
    exact ⟨hfolder, hfile⟩
  obtain ⟨⟨hlist, _⟩, hplans⟩ := List.forall_mem_cons.mp hnone
  constructor
  · refine ⟨directory, ?_, ["sweep.json"], ?_, ?_⟩
    · rw [Directory.make?_eq, hstem]
      rfl
    · rw [Directory.place?_join _ _ isName_sweepFile, hhome]
      rfl
    · rw [Directory.isFolder, hlist]
      rfl
  · intro name hname
    have hisName : Path.IsName name := by
      obtain ⟨hyper, hhyper, rfl⟩ := List.mem_map.mp hname
      exact Preset.isName_runName _ hyper hhyper
    obtain ⟨hfolder, hfile⟩ := hplans name hname
    refine (Directory.accepts_join_iff hisName isName_planFile hhome).mpr
      ⟨fun bytes hbytes => ?_, ?_⟩
    · rw [List.nil_append, hfolder] at hbytes
      cases hbytes
    · rw [List.nil_append, Directory.isFolder, hfile]
      rfl

/-- The small data set has nothing held out, and neither has a sweep over it. -/
theorem sweep_greeting : ∃ (maxLength : Nat) (s' s'' : Session) (row : Row),
    perform (compile (ofDirectory [] "now") (byteConfig maxLength) "a.jsonl" "/out") greeting =
      (.ok (), s') ∧
    readRows? s'.directory "/out/train.jsonl" = some [some row] ∧
    readRows? s'.directory "/out/eval.jsonl" = some [] ∧
    perform (sweep (ofDirectory [] "later") (byteConfig maxLength) .quick "/out" ".") s' =
      (.ok (), s'') ∧
    ∀ h ∈ Preset.quick.grid, ∃ plan : Json,
      s''.directory.read? (planPath "." h.runName) = some (Text.Utf8.encode plan.pretty) ∧
      plan.member? "train_examples" = some (.nat 1) ∧ plan.member? "eval_file" = some .null ∧
      plan.member? "eval_strategy" = some (.string "no") ∧
      plan.member? "load_best_model_at_end" = some (.bool false) := by
  obtain ⟨maxLength, s', hcompile, hsame⟩ := exists_compile_greeting
  obtain ⟨d, hdata, ⟨htrain, heval, _⟩, hsweep⟩ := compileWith_sweep [] "now"
    (byteConfig maxLength) (quiet_encoder _) "a.jsonl" "/out" greeting s' hcompile
  obtain ⟨hone, hnone⟩ := length_split_greeting hdata
  obtain ⟨row, hrow⟩ := List.length_eq_one_iff.mp hone
  obtain ⟨hruns, hplans, _⟩ := hsweep [] "later" .quick "."
  obtain ⟨s'', hperform⟩ := hruns (acceptsRuns_greeting hsame)
  rw [hrow] at htrain
  rw [List.eq_nil_of_length_eq_zero hnone] at heval
  refine ⟨maxLength, s', s'', _, hcompile, htrain, heval, hperform, fun h hh => ?_⟩
  have htrain : ((d.run (byteConfig maxLength) "/out" h).toJson "later").member? "train_examples" =
    some (.nat d.split.train.length) := rfl
  have heval : (d.run (byteConfig maxLength) "/out" h).hasEval = false := by
    show decide (0 < d.split.eval.length) = false
    rw [hnone]
    rfl
  rw [hone] at htrain
  exact ⟨_, (hplans s'' hperform h hh).1, htrain, Plan.member?_of_not_hasEval heval "later"⟩

end Command

end InstallAssistant
