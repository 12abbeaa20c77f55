import InstallAssistant.Command.Compile
import InstallAssistant.Proofs.Chat.Prompt
import InstallAssistant.Proofs.Host.Directory
import InstallAssistant.Proofs.Training.Load
import InstallAssistant.Proofs.Training.Split
import InstallAssistant.Proofs.Training.Tally
import InstallAssistant.Proofs.Training.Target

/-!
# InstallAssistant.Proofs.Command.Compile

A compilation in two halves.

1. Loading and compiling only look (`quiet_compileData`), and
   `perform_compileData_eq_ok_iff` says when they give a data set and which one.
2. Then the files of the data set are written, and all of them can be read when
   that has succeeded (`perform_compileWith_eq_ok`); only the writing can fail
   with something written (`perform_compileWith_eq_error`).
-/

namespace InstallAssistant.Command

open Chat Host Training

section

variable {input : List UInt8} {time : String}

/-! ## what only looks -/

theorem quiet_needText (summary path : String) :
    Quiet ((ofDirectory input time).needText summary path) := by
  intro s
  rw [perform_needText]

theorem quiet_encoder (c : Config) : Quiet (encoder (ofDirectory input time) c) := by
  rw [encoder, Encoder.load]
  split
  · exact .pure _
  split
  · exact .throw _
  · have hpath : ∀ name s, ((Encoder.filePath (ofDirectory input time) name).run s).2 = s := by
      intro name s
      have hkind : ((ofDirectory input time).kind name).run s = (s.directory.kind? name, s) := rfl
      rw [Encoder.filePath, StateT.run_bind, hkind]
      show (StateT.run (m := Id) _ s).2 = s
      split <;> rfl
    refine .bind (.lift (hpath _)) fun path => .bind (.lift fun _ => rfl) fun found => ?_
    split
    · refine .bind (.lift fun _ => rfl) fun text => ?_
      split
      · exact .throw _
      · exact .ofExcept _
    · exact .throw_bind _

theorem quiet_prompter (c : Config) : Quiet (prompter (ofDirectory input time) c) := by
  rw [prompter]
  split
  · exact .bind (.bind (quiet_needText _ _) fun _ => .ofExcept _) fun _ => .pure _
  · exact .pure _

theorem quiet_compileData {c : Config} {encoder : Task (StateM Session) Encoder}
    (hencoder : Quiet encoder) (data : String) :
    Quiet (compileData (ofDirectory input time) c encoder data) := by
  rw [compileData]
  refine .bind (quiet_load data) fun loaded => ?_
  split
  · exact .throw_bind _
  · refine .bind hencoder fun e => .bind (quiet_prompter c) fun p => .bind (.ofExcept _) fun _ => ?_
    simp only
    split
    · exact .throw_bind _
    · exact .bind (.ofExcept _) fun _ => .pure _

/-! ## what is compiled -/

/-- What a compiler makes of a loaded data set, and how the rows are split. -/
structure Compiled.Built (d : Compiled) (c : Config) (compiler : Compiler) : Prop where
  encoderName : d.encoderName = compiler.encoder.name
  rows : (compiler.compileAll d.loaded.examples).1 ≠ []
  stats : d.stats = (compiler.compileAll d.loaded.examples).2
  split : Training.split (compiler.compileAll d.loaded.examples).1 c.compile.evalFraction
    c.compile.seed = .ok d.split

/-- The compiler of a configuration, with an encoder that is asked for. -/
def IsCompiler (h : Host (StateM Session)) (c : Config) (encoder : Task (StateM Session) Encoder)
    (s : Session) (compiler : Compiler) : Prop :=
  ∃ e p, perform encoder s = (.ok e, s) ∧ perform (prompter h c) s = (.ok p, s) ∧
    Compiler.make p e c.compile.maxLength c.model.addSpecialTokens = .ok compiler

theorem encoder_of_make {p : Chat.Prompter} {e : Encoder} {maxLength : Nat} {special : Bool}
    {compiler : Compiler} (h : Compiler.make p e maxLength special = .ok compiler) :
    compiler.encoder = e := by
  obtain ⟨_, _, rfl⟩ := Compiler.make_eq_ok_iff.mp h
  rfl

variable {c : Config} {encoder : Task (StateM Session) Encoder} {data output : String}
  {s s' : Session} {d : Compiled}

/-- **When a data set is compiled**: its records are loaded, there is a compiler, at least one
record has a row, and the rows can be split. -/
theorem perform_compileData_eq_ok_iff (hencoder : Quiet encoder) :
    perform (compileData (ofDirectory input time) c encoder data) s = (.ok d, s') ↔
      s' = s ∧ perform (load (ofDirectory input time) data) s = (.ok d.loaded, s) ∧
        ∃ compiler, IsCompiler (ofDirectory input time) c encoder s compiler ∧
          d.Built c compiler := by
  rw [compileData]
  constructor
  · intro h
    obtain ⟨loaded, s₁, hload, h₁⟩ := perform_bind_eq_ok_iff.mp h
    obtain rfl := (quiet_load data).eq_of_perform hload
    split at h₁
    · cases h₁
    obtain ⟨e, s₂, he, h₂⟩ := perform_bind_eq_ok_iff.mp h₁
    obtain rfl := hencoder.eq_of_perform he
    obtain ⟨p, s₃, hp, h₃⟩ := perform_bind_eq_ok_iff.mp h₂
    obtain rfl := (quiet_prompter c).eq_of_perform hp
    obtain ⟨compiler, s₄, hcompiler, h₄⟩ := perform_bind_eq_ok_iff.mp h₃
    obtain ⟨hmake, rfl⟩ := Prod.mk.inj hcompiler
    simp only at h₄
    split at h₄
    · cases h₄
    next hrows =>
    obtain ⟨parts, s₅, hparts, h₅⟩ := perform_bind_eq_ok_iff.mp h₄
    obtain ⟨hsplit, rfl⟩ := Prod.mk.inj hparts
    cases h₅
    have hname := congrArg Encoder.name (encoder_of_make hmake).symm
    exact ⟨rfl, hload, compiler, ⟨e, p, he, hp, hmake⟩, hname, by simpa using hrows, rfl, hsplit⟩
  · rintro ⟨rfl, hload, compiler, ⟨e, p, he, hp, hmake⟩, hname, hrows, hstats, hsplit⟩
    have hexamples : ¬ d.loaded.examples.isEmpty = true := by
      intro hnil
      rw [List.isEmpty_iff.mp hnil] at hrows
      exact hrows rfl
    have hsome : ¬ (compiler.compileAll d.loaded.examples).1.isEmpty = true := by simpa using hrows
    refine perform_bind_eq_ok_iff.mpr ⟨d.loaded, s', hload, ?_⟩
    rw [if_neg hexamples]
    refine perform_bind_eq_ok_iff.mpr ⟨e, s', he, perform_bind_eq_ok_iff.mpr ⟨p, s', hp, ?_⟩⟩
    rw [hmake, perform_bind, perform_mk_pure]
    simp only
    rw [if_neg hsome, hsplit, perform_bind, perform_mk_pure, ← encoder_of_make hmake, ← hname,
      ← hstats]
    rfl

/-! ## what is written -/

/-- The files of a data set are in a folder. -/
structure Compiled.Written (d : Compiled) (c : Config) (folder time : String)
    (directory : Directory) : Prop where
  train : directory.read? (Path.join folder trainFile) =
    some (Text.Utf8.encode (rowLines d.split.train))
  eval : directory.read? (Path.join folder evalFile) =
    some (Text.Utf8.encode (rowLines d.split.eval))
  stats : directory.read? (Path.join folder statsFile) =
    some (Text.Utf8.encode (d.statsJson c).pretty)
  plan : directory.read? (Path.join folder planFile) =
    some (Text.Utf8.encode ((d.plan c folder).toJson time).pretty)

/-- The files of a data set, in the order in which they are written. -/
def Compiled.files (d : Compiled) (c : Config) (folder time : String) :
    List (String × List UInt8) :=
  [(trainFile, Text.Utf8.encode (rowLines d.split.train)),
    (evalFile, Text.Utf8.encode (rowLines d.split.eval)),
    (statsFile, Text.Utf8.encode (d.statsJson c).pretty),
    (planFile, Text.Utf8.encode ((d.plan c folder).toJson time).pretty)]

theorem isName_planFile : Path.IsName planFile := by decide

theorem Compiled.isName_files (d : Compiled) (c : Config) (folder time : String) :
    ∀ name ∈ (d.files c folder time).map Prod.fst, Path.IsName name :=
  (by decide : ∀ name ∈ [trainFile, evalFile, statsFile, planFile], Path.IsName name)

theorem Compiled.nodup_files (d : Compiled) (c : Config) (folder time : String) :
    ((d.files c folder time).map Prod.fst).Nodup :=
  (by decide : [trainFile, evalFile, statsFile, planFile].Nodup)

theorem Compiled.written_of_writeAll? {folder time : String} {directory directory' : Directory}
    (h : directory.writeAll? folder (d.files c folder time) = some directory') :
    d.Written c folder time directory' := by
  have hread := Directory.read?_of_writeAll? h (d.isName_files c folder time)
    (d.nodup_files c folder time)
  simp only [Compiled.files, List.forall_mem_cons] at hread
  obtain ⟨htrain, heval, hstats, hplan, _⟩ := hread
  exact ⟨htrain, heval, hstats, hplan⟩

/-- **What a compilation comes to**: a data set is compiled while nothing changes, and then all of
its files are written. -/
theorem perform_compileWith_eq_ok (hencoder : Quiet encoder)
    (h : perform (compileWith (ofDirectory input time) c encoder data output) s = (.ok (), s')) :
    ∃ d, perform (compileData (ofDirectory input time) c encoder data) s = (.ok d, s) ∧
      d.Written c output time s'.directory := by
  rw [compileWith] at h
  obtain ⟨d, s₁, hd, h₁⟩ := perform_bind_eq_ok_iff.mp h
  obtain rfl := (quiet_compileData hencoder data).eq_of_perform hd
  refine ⟨d, hd, ?_⟩
  obtain ⟨_, s₂, hfolder, h₂⟩ := perform_bind_eq_ok_iff.mp h₁
  obtain ⟨_, s₃, htrain, h₃⟩ := perform_bind_eq_ok_iff.mp h₂
  obtain ⟨_, s₄, heval, h₄⟩ := perform_bind_eq_ok_iff.mp h₃
  obtain ⟨_, s₅, hstats, h₅⟩ := perform_bind_eq_ok_iff.mp h₄
  rw [perform_bind, perform_now] at h₅
  obtain ⟨_, s₆, hplan, h₆⟩ := perform_bind_eq_ok_iff.mp h₅
  have hprinted : s'.directory = s₆.directory := by
    rw [perform_bind, perform_printLine] at h₆
    simp only at h₆
    split at h₆
    · cases h₆; rfl
    · rw [perform_printLine] at h₆; cases h₆; rfl
  have hall : s₂.directory.writeAll? output (d.files c output time) = some s₆.directory := by
    simp only [Compiled.files, Directory.writeAll?_cons_eq_some_iff]
    exact ⟨_, write?_of_perform htrain, _, write?_of_perform heval, _, write?_of_perform hstats, _,
      write?_of_perform hplan, rfl⟩
  rw [hprinted]
  exact Compiled.written_of_writeAll? hall

/-- A compilation that fails has changed nothing, unless a file could not be read or written. -/
theorem perform_compileWith_eq_error (hencoder : Quiet encoder) {f : Failure}
    (h : perform (compileWith (ofDirectory input time) c encoder data output) s = (.error f, s'))
    (hio : Failure.io ∉ f.causes) : s' = s := by
  rw [compileWith] at h
  rcases perform_bind_eq_error_iff.mp h with hdata | ⟨d, s₁, _, hwrites⟩
  · exact (quiet_compileData hencoder data).eq_of_perform hdata
  · refine absurd (FailsByIo.bind failsByIo_needFolders (fun _ => ?_) s₁ f s' hwrites) hio
    refine .bind failsByIo_writeText fun _ => .bind failsByIo_writeText fun _ =>
      .bind failsByIo_writeText fun _ => .bind (.lift _) fun _ =>
      .bind failsByIo_writeText fun _ => .bind (.lift _) fun _ => ?_
    split
    · exact .pure _
    · exact .lift _

/-- A compilation succeeds if its data set does and there is room for its files, and then nothing
else has changed but for the folder. -/
theorem exists_perform_compileWith
    (hdata : perform (compileData (ofDirectory input time) c encoder data) s = (.ok d, s))
    {folder : Directory} (hfolder : s.directory.make? output = some folder)
    (hroom : ∀ name ∈ [trainFile, evalFile, statsFile, planFile],
      folder.Writable (Path.join output name)) :
    ∃ s', perform (compileWith (ofDirectory input time) c encoder data output) s =
        (.ok (), s') ∧
      ∀ q, (∀ name ∈ [trainFile, evalFile, statsFile, planFile],
        folder.place? (Path.join output name) ≠ some q) →
        s'.directory.find? q = folder.find? q := by
  obtain ⟨directory, hall⟩ := @Directory.exists_writeAll? folder output (d.files c output time) hroom
  have hsame : ∀ q, (∀ name ∈ [trainFile, evalFile, statsFile, planFile],
      folder.place? (Path.join output name) ≠ some q) → directory.find? q = folder.find? q :=
    fun q hq => Directory.find?_of_writeAll? hall hq
  simp only [Compiled.files, Directory.writeAll?_cons_eq_some_iff] at hall
  obtain ⟨d₁, h₁, d₂, h₂, d₃, h₃, d₄, h₄, hlast⟩ := hall
  cases hlast
  rw [compileWith, perform_bind, hdata]
  simp only [writeRows, writeJson, perform_bind, perform_needFolders, perform_writeText,
    perform_now, perform_printLine, hfolder, h₁, h₂, h₃, h₄]
  split
  · exact ⟨_, rfl, hsame⟩
  · exact ⟨_, rfl, hsame⟩

end

/-! ## a small data set -/

/-- A directory with one data file: a transcript, a blank line, and a line that holds no record. -/
def greeting : Session where
  directory := ⟨[(["a.jsonl"], .file (Text.Utf8.encode (
    "\x7b\"messages\":[\x7b\"role\":\"user\",\"content\":\"hi\"\x7d," ++
      "\x7b\"role\":\"assistant\",\"content\":\"yo\"\x7d]\x7d\n\nx\n")))]⟩

def greetingExample : Example := ⟨"a.jsonl:1", none, [⟨"user", "hi"⟩, ⟨"assistant", "yo"⟩], none⟩

def byteConfig (maxLength : Nat) : Config :=
  { model := { tokenizer := "bytes" }, compile := { maxLength } }

theorem perform_load_greeting : perform (load (ofDirectory [] "now") "a.jsonl") greeting =
    (.ok ⟨["a.jsonl"], [greetingExample], 1⟩, greeting) := by decide +kernel

theorem exists_compileExample_greeting :
    ∃ maxLength row, 0 < maxLength ∧
      (Compiler.ofBytes [shellTool] maxLength false).compileExample greetingExample = .ok row := by
  obtain ⟨maxLength, row, hpos, hrow⟩ := Compiler.exists_compileTarget_ofBytes
    ⟨none, [⟨.user, "hi"⟩]⟩ "yo" (bracket_notMem_systemPrompt (by decide +kernel)) (by decide)
    (by decide) [shellTool] false
  have hmessages : Conversation.ofMessages none [⟨"user", "hi"⟩, ⟨"assistant", "yo"⟩] =
      .ok ⟨none, [⟨.user, "hi"⟩, ⟨.assistant, "yo"⟩]⟩ := by decide
  have hlast : Conversation.splitLast? ⟨none, [⟨.user, "hi"⟩, ⟨.assistant, "yo"⟩]⟩ =
      some (⟨none, [⟨.user, "hi"⟩]⟩, ⟨.assistant, "yo"⟩) := rfl
  refine ⟨maxLength, row, hpos, ?_⟩
  simp only [greetingExample, Compiler.compileExample, hmessages, Compiler.compileTranscript, hlast,
    hrow]

theorem rows_greeting {compiler : Compiler} {row : Row}
    (hrow : compiler.compileExample greetingExample = .ok row) :
    (compiler.compileAll [greetingExample]).1 = [row] := by
  rw [Compiler.rows_compileAll, List.filterMap_cons, Compiler.row?, hrow]
  rfl

theorem make_ofBytes (tools : List Json) {maxLength : Nat} (hpos : 0 < maxLength)
    (special : Bool) :
    Compiler.make ⟨chatML, tools⟩ Encoder.bytes maxLength special =
      .ok (Compiler.ofBytes tools maxLength special) := by
  have hstop : Encoder.bytes.single? ChatML.turnEnd ≠ some Encoder.bytes.pad := by decide +kernel
  exact Compiler.make_eq_ok_iff.mpr ⟨Nat.ne_of_gt hpos, hstop, rfl⟩

theorem exists_split (row : Row) : ∃ parts, Training.split [row] 0.1 42 = .ok parts := by
  have hshare : isShare 0.1 = true := by decide +kernel
  exact ⟨_, split_eq_ok_iff.mpr ⟨hshare, rfl⟩⟩

theorem exists_compileData_greeting : ∃ maxLength d,
    perform (compileData (ofDirectory [] "now") (byteConfig maxLength)
      (Command.encoder (ofDirectory [] "now") (byteConfig maxLength)) "a.jsonl") greeting =
        (.ok d, greeting) := by
  obtain ⟨maxLength, row, hpos, hrow⟩ := exists_compileExample_greeting
  obtain ⟨parts, hsplit⟩ := exists_split row
  have hrows := rows_greeting hrow
  have hencoder : perform (Command.encoder (ofDirectory [] "now") (byteConfig maxLength)) greeting =
    (.ok Encoder.bytes, greeting) := rfl
  have hprompter : perform (prompter (ofDirectory [] "now") (byteConfig maxLength)) greeting =
    (.ok ⟨chatML, [shellTool]⟩, greeting) := rfl
  refine ⟨maxLength, ⟨"bytes", ⟨["a.jsonl"], [greetingExample], 1⟩,
    ((Compiler.ofBytes [shellTool] maxLength false).compileAll [greetingExample]).2, parts⟩,
    (perform_compileData_eq_ok_iff (quiet_encoder _)).mpr ⟨rfl, perform_load_greeting,
      Compiler.ofBytes [shellTool] maxLength false, ?_, ⟨rfl, ?_, rfl, ?_⟩⟩⟩
  · exact ⟨Encoder.bytes, ⟨chatML, [shellTool]⟩, hencoder, hprompter, make_ofBytes _ hpos _⟩
  · rw [hrows]
    exact List.cons_ne_nil _ _
  · rw [hrows]
    exact hsplit

/-- The small data set can be compiled into a folder that is named from the root, and nothing changes
but for what is written. -/
theorem exists_compile_greeting : ∃ maxLength s',
    perform (compile (ofDirectory [] "now") (byteConfig maxLength) "a.jsonl" "/out") greeting =
        (.ok (), s') ∧
      ∀ q, q.head? ≠ some "out" → s'.directory.find? q = greeting.directory.find? q := by
  obtain ⟨maxLength, d, hdata⟩ := exists_compileData_greeting
  have hfolder : greeting.directory.make? "/out" =
    some (greeting.directory.set ["out"] .folder) := by decide +kernel
  have hplace : ∀ name ∈ [trainFile, evalFile, statsFile, planFile],
      (greeting.directory.set ["out"] .folder).place? (Path.join "/out" name) = some ["out", name] ∧
        (greeting.directory.set ["out"] .folder).isFolder ["out", name] = false := by decide +kernel
  obtain ⟨s', h, hsame⟩ := exists_perform_compileWith hdata hfolder
    fun name hname => ⟨_, hplace name hname⟩
  refine ⟨maxLength, s', h, fun q hq => ?_⟩
  have hout : ∀ rest, q ≠ "out" :: rest := by
    rintro rest rfl
    exact hq rfl
  rw [hsame q fun name hname heq => ?_, Directory.find?_set_ne (hout [])]
  rw [(hplace name hname).1] at heq
  exact hout [name] (Option.some.inj heq).symm

end InstallAssistant.Command
