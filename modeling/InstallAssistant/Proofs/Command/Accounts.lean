import InstallAssistant.Proofs.Command.Compile

/-!
# InstallAssistant.Proofs.Command.Accounts

No record is lost or counted twice: every line of the data files that is not blank
is skipped, dropped, or in one of the two files of rows (`compileWith_accounts`),
and the statistics that are written say how many are where.  A compilation that
fails for another reason than a file leaves the directory alone.
-/

namespace InstallAssistant

namespace Training.Line

/-! ## rows of lines -/

/-- The row of a line, if it has one. -/
def row? (compiler : Compiler) (l : Line) : Option Row := l.example?.bind compiler.row?

variable (compiler : Compiler) (lines : List Line)

theorem filterMap_example?_row? :
    (lines.filterMap example?).filterMap compiler.row? = lines.filterMap (row? compiler) :=
  List.filterMap_filterMap

theorem map_row?_filter :
    (lines.filter fun l => (l.row? compiler).isSome).map (row? compiler) =
      (lines.filterMap (row? compiler)).map some := by
  induction lines with
  | nil => rfl
  | cons l lines ih =>
      cases h : l.row? compiler <;> simp [h, ih]

theorem length_example?_add_countP :
    (lines.filterMap example?).length + lines.countP (fun l => l.example?.isNone) =
      lines.length := by
  rw [List.length_filterMap_eq_countP,
    List.length_eq_countP_add_countP fun l : Line => l.example?.isSome]
  exact congrArg _ (List.countP_congr fun l _ => by simp)

end Training.Line

namespace Command

open Host Training

/-! ## accounts -/

/-- Where the lines of a data set are: each is in one of four places. -/
structure Compiled.Sorts (d : Compiled) (compiler : Compiler)
    (lines skipped dropped train eval : List Line) : Prop where
  all : (skipped ++ dropped ++ train ++ eval).Perm lines
  skipped : skipped.length = d.loaded.skipped ∧ ∀ l ∈ skipped, l.example? = none
  dropped : dropped.length = d.stats.dropped.total ∧
    ∀ l ∈ dropped, ∃ e, l.example? = some e ∧ (compiler.reason? e).isSome
  train : train.map (Line.row? compiler) = d.split.train.map some
  eval : eval.map (Line.row? compiler) = d.split.eval.map some

/-- The books of a compilation balance. -/
structure Compiled.Accounts (d : Compiled) (compiler : Compiler) (lines : List Line) : Prop where
  examples : d.loaded.examples = lines.filterMap Line.example?
  loaded_add_skipped : d.loaded.examples.length + d.loaded.skipped = lines.length
  total : d.stats.total = d.loaded.examples.length
  compiled_add_dropped : d.stats.compiled + d.stats.dropped.total = d.stats.total
  /-- How many examples were dropped for a reason, as it is written. -/
  dropped : ∀ reason, d.stats.dropped.toJson.member? reason =
    let k := d.loaded.examples.countP fun e => compiler.reason? e == some reason
    if k = 0 then none else some (.nat k)
  reasons : (d.stats.dropped.map (·.1)).Nodup
  compiled : d.stats.compiled = d.split.train.length + d.split.eval.length
  rows : (d.split.train ++ d.split.eval).Perm (d.loaded.examples.filterMap compiler.row?)
  train : d.split.train ≠ []
  order : (compiler.compileAll d.loaded.examples).1 = d.loaded.examples.filterMap compiler.row?
  sorts : ∃ skipped dropped train eval, d.Sorts compiler lines skipped dropped train eval

/-- Written statistics say what the accounts say. -/
structure Compiled.Reported (d : Compiled) (stats : Json) : Prop where
  loaded : stats.member? "records_loaded" = some (.nat d.loaded.examples.length)
  skipped : stats.member? "records_skipped" = some (.nat d.loaded.skipped)
  total : stats.member? "total" = some (.nat d.stats.total)
  compiled : stats.member? "compiled" = some (.nat d.stats.compiled)
  dropped : stats.member? "dropped" = some d.stats.dropped.toJson
  train : stats.member? "train_examples" = some (.nat d.split.train.length)
  eval : stats.member? "eval_examples" = some (.nat d.split.eval.length)

theorem Compiled.reported_statsJson (d : Compiled) (c : Config) : d.Reported (d.statsJson c) :=
  ⟨rfl, rfl, rfl, rfl, rfl, rfl, rfl⟩

section

variable {d : Compiled} {c : Config} {compiler : Compiler} {files : List String} {lines : List Line}

theorem Compiled.Built.divides (h : d.Built c compiler)
    (hloaded : d.loaded = Loaded.add ⟨files, [], 0⟩ lines) :
    d.split.Divides (lines.filterMap (Line.row? compiler)) := by
  have hdivides := Split.divides_of_split h.split
  rwa [Compiler.rows_compileAll, hloaded, Loaded.add, List.nil_append,
    Line.filterMap_example?_row?] at hdivides

theorem Compiled.Built.compiled_eq (h : d.Built c compiler) :
    d.stats.compiled = d.split.train.length + d.split.eval.length := by
  rw [Split.length_of_split h.split, h.stats]
  rfl

theorem Compiled.Built.compiled_add_dropped (h : d.Built c compiler) :
    d.stats.compiled + d.stats.dropped.total = d.loaded.examples.length := by
  rw [h.stats]
  exact compiler.compiled_add_dropped _

theorem Compiled.loaded_add_skipped (hloaded : d.loaded = Loaded.add ⟨files, [], 0⟩ lines) :
    d.loaded.examples.length + d.loaded.skipped = lines.length := by
  rw [hloaded, Loaded.add, List.nil_append, Nat.zero_add, Line.length_example?_add_countP]

/-- **Every line is in one place.** -/
theorem Compiled.Built.sorts (h : d.Built c compiler)
    (hloaded : d.loaded = Loaded.add ⟨files, [], 0⟩ lines) :
    ∃ skipped dropped train eval, d.Sorts compiler lines skipped dropped train eval := by
  obtain ⟨hperm, htrain, heval⟩ := (h.divides hloaded).along (Line.map_row?_filter compiler lines)
  let rowless := lines.filter fun l => !(l.row? compiler).isSome
  let skipped := rowless.filter fun l => l.example?.isNone
  let dropped := rowless.filter fun l => !l.example?.isNone
  have hall : (skipped ++ dropped ++ (_ ++ _)).Perm lines :=
    ((List.filter_append_perm (fun l => l.example?.isNone) rowless).append hperm).trans
      (List.perm_append_comm.trans
        (List.filter_append_perm (fun l => (l.row? compiler).isSome) lines))
  rw [← List.append_assoc] at hall
  have hskipped : skipped.length = d.loaded.skipped := by
    rw [hloaded, Loaded.add, Nat.zero_add, ← List.countP_eq_length_filter, List.countP_filter]
    refine List.countP_congr fun l _ => ?_
    cases hl : l.example? <;> simp [Line.row?, hl]
  refine ⟨skipped, dropped, _, _, hall, ⟨hskipped, ?_⟩, ⟨?_, ?_⟩, htrain, heval⟩
  · intro l hl
    simpa using List.of_mem_filter hl
  · have hlength := hall.length_eq
    have htrain := congrArg List.length htrain
    have heval := congrArg List.length heval
    simp only [List.length_append, List.length_map] at hlength htrain heval
    have hlines := d.loaded_add_skipped hloaded
    have hdropped := h.compiled_add_dropped
    have hcompiled := h.compiled_eq
    omega
  · intro l hl
    obtain ⟨hrowless, hexample⟩ := List.mem_filter.mp hl
    cases he : l.example? with
    | none => simp [he] at hexample
    | some e =>
        refine ⟨e, rfl, ?_⟩
        rw [compiler.isSome_reason?]
        have hrow := List.of_mem_filter hrowless
        simpa [Line.row?, he] using hrow

theorem Compiled.Built.accounts (h : d.Built c compiler)
    (hloaded : d.loaded = Loaded.add ⟨files, [], 0⟩ lines) : d.Accounts compiler lines where
  examples := by rw [hloaded, Loaded.add, List.nil_append]
  loaded_add_skipped := d.loaded_add_skipped hloaded
  total := by rw [h.stats]; rfl
  compiled_add_dropped := by rw [h.compiled_add_dropped, h.stats]; rfl
  dropped reason := by
    have hcounts := (compiler.counts_dropped d.loaded.examples).member?_toJson reason
    rwa [List.count_filterMap, ← h.stats] at hcounts
  reasons := by
    have hincreasing := (compiler.counts_dropped d.loaded.examples).increasing
    rw [← h.stats] at hincreasing
    exact (List.pairwise_map.mpr hincreasing).imp ne_of_lt
  compiled := h.compiled_eq
  rows := by
    rw [← compiler.rows_compileAll]
    exact (Split.divides_of_split h.split).perm
  train := Split.train_ne_nil h.split h.rows
  order := compiler.rows_compileAll _
  sorts := h.sorts hloaded

end

/-! ## compilations -/

/-- **No record is lost or counted twice**, whatever is in the data files, for every configuration
and every encoder.  When a compilation succeeds, all lines of the data files can be read, and the
rows and the statistics it has written account for each line that is not blank.  When it fails, and
not because a file cannot be read or written, everything is as it was. -/
theorem compileWith_accounts (input : List UInt8) (time : String) (c : Config)
    {encoder : Task (StateM Session) Encoder} (hencoder : Quiet encoder) (data output : String)
    (s s' : Session) :
    (perform (compileWith (ofDirectory input time) c encoder data output) s = (.ok (), s') →
      ∃ (files : List String) (d : Compiled) (compiler : Compiler),
        perform (dataFiles (ofDirectory input time) data) s = (.ok files, s) ∧
        (∀ file ∈ files, ∃ bytes, s.directory.read? file = some bytes ∧ Readable bytes) ∧
        IsCompiler (ofDirectory input time) c encoder s compiler ∧
        d.Accounts compiler (Line.ofFiles s.directory files) ∧
        d.Written c output time s'.directory ∧ d.Reported (d.statsJson c)) ∧
    ∀ f, perform (compileWith (ofDirectory input time) c encoder data output) s = (.error f, s') →
      Failure.io ∉ f.causes → s'.directory = s.directory := by
  constructor
  · intro h
    obtain ⟨d, hdata, hwritten⟩ := perform_compileWith_eq_ok hencoder h
    obtain ⟨_, hload, compiler, hcompiler, hbuilt⟩ :=
      (perform_compileData_eq_ok_iff hencoder).mp hdata
    obtain ⟨_, files, hfiles, hread, hloaded⟩ := perform_load_eq_ok_iff.mp hload
    exact ⟨files, d, compiler, hfiles, hread, hcompiler, hbuilt.accounts hloaded, hwritten,
      d.reported_statsJson c⟩
  · intro f h hio
    rw [perform_compileWith_eq_error hencoder h hio]

/-- Of the three lines of the small data set one is blank, one is skipped, and one has a row; and
where there are no data, no folder is made. -/
theorem compile_greeting_accounts :
    (∃ (maxLength : Nat) (s' : Session) (d : Compiled),
      perform (compile (ofDirectory [] "now") (byteConfig maxLength) "a.jsonl" "/out") greeting =
        (.ok (), s') ∧
      d.Written (byteConfig maxLength) "/out" "now" s'.directory ∧
      d.loaded.skipped = 1 ∧ d.stats.dropped.total = 0 ∧
      d.split.train.length + d.split.eval.length = 1) ∧
    ∃ f s', perform (compile (ofDirectory [] "now") {} "b.jsonl" "out") greeting = (.error f, s') ∧
      s'.directory = greeting.directory := by
  constructor
  · obtain ⟨maxLength, s', h, _⟩ := exists_compile_greeting
    obtain ⟨files, d, compiler, hfiles, _, _, haccounts, hwritten, _⟩ :=
      (compileWith_accounts [] "now" (byteConfig maxLength) (quiet_encoder _) "a.jsonl" "/out"
        greeting s').1 h
    obtain rfl : files = ["a.jsonl"] := by
      have hlist : perform (dataFiles (ofDirectory [] "now") "a.jsonl") greeting =
          (.ok ["a.jsonl"], greeting) := by decide +kernel
      rw [hlist] at hfiles
      cases hfiles
      rfl
    have hlines : (Line.ofFiles greeting.directory ["a.jsonl"]).length = 2 := by decide +kernel
    have hexamples : d.loaded.examples.length = 1 := by
      rw [haccounts.examples]
      decide +kernel
    have hloaded := haccounts.loaded_add_skipped
    have htotal := haccounts.total
    have hdropped := haccounts.compiled_add_dropped
    have hcompiled := haccounts.compiled
    have htrain := List.length_pos_iff.mpr haccounts.train
    exact ⟨maxLength, s', d, h, hwritten, by omega, by omega, by omega⟩
  · have h : perform (compile (ofDirectory [] "now") {} "b.jsonl" "out") greeting =
        (.error ⟨"data path not found: b.jsonl", []⟩, greeting) := rfl
    exact ⟨_, _, h, (compileWith_accounts [] "now" {} (quiet_encoder _) "b.jsonl" "out" greeting
      greeting).2 _ h (by decide)⟩

end Command

end InstallAssistant
