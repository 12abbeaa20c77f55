import InstallAssistant.Command.Show
import InstallAssistant.Proofs.Host.Session
import InstallAssistant.Proofs.Json.Value
import InstallAssistant.Server

/-!
# InstallAssistant.Proofs.Facts.Saved

Facts that are saved come back.  A device is an object whose fields may stand in
any order: the loader first takes a text for a value, whose members are sorted, and
reads the facts from that value; a listing it reads from the text itself.  So devices
are read back from both orders (`BlockDevice.Writes`), if the text is not nested too
deep, and each generation of devices takes two containers (`depth_toJson`).

The facts are then loaded from whatever spells them (`ofText_eq_ok`, `ofText_listing`),
and the command and the server both spell them (`loadedFrom_saved`).
-/

namespace InstallAssistant

open Json (Reader)

/-! ## devices -/

namespace BlockDevice

mutual

/-- How many generations there are: the device, what it carries, what that carries, and so on. -/
def generations (d : BlockDevice) : Nat :=
  match d with
  | ⟨_, _, _, _, _, _, children⟩ => listGenerations children + 1

def listGenerations : List BlockDevice → Nat
  | [] => 0
  | d :: ds => max (generations d) (listGenerations ds)

end

theorem generations_eq (d : BlockDevice) : d.generations = listGenerations d.children + 1 := by
  cases d
  rfl

theorem listGenerations_le_iff {ds : List BlockDevice} {n : Nat} :
    listGenerations ds ≤ n ↔ ∀ d ∈ ds, d.generations ≤ n := by
  induction ds with
  | nil => simp [listGenerations]
  | cons d ds ih => rw [listGenerations, Nat.max_le, ih, List.forall_mem_cons]

/-! ### as objects -/

/-- The fields of a device in an object, with what is written of its children. -/
def fields (d : BlockDevice) (children : List Json) : List (String × Json) :=
  [("name", .string d.name), ("size", .ofText? d.size), ("type", .ofText? d.kind),
    ("mountpoint", .ofText? d.mountpoint), ("fstype", .ofText? d.fstype),
    ("model", .ofText? d.model), ("children", .array children)]

theorem nodup_fields (d : BlockDevice) (children : List Json) :
    ((d.fields children).map Prod.fst).Nodup := by
  have hnames : ["name", "size", "type", "mountpoint", "fstype", "model", "children"].Nodup := by
    decide
  exact hnames

/-- A way to write devices: as objects that have all the fields, in some order. -/
def Writes (f : BlockDevice → Json) : Prop :=
  ∀ d, ∃ members, f d = .object members ∧ members.Perm (d.fields (d.children.map f))

/-- A device is read from its fields, if its children are. -/
theorem readerTo_of_perm {d : BlockDevice} {children : List Json} {members : List (String × Json)}
    (hmembers : members.Perm (d.fields children)) {depth room : Nat}
    (hchildren : Reader.list (readerTo depth) room (.ofJson (.array children)) = some d.children) :
    readerTo (depth + 1) (room + 1) (.ofJson (.object members)) = some d := by
  refine (Reader.record_perm hmembers (d.nodup_fields children) false _ room).trans ?_
  rw [Json.Tree.ofJson] at hchildren
  obtain ⟨name, size, kind, mountpoint, fstype, model, own⟩ := d
  simp [fields, Reader.Fields.required, Reader.Fields.optional, Reader.Fields.withDefault,
    Reader.Fields.slot, Reader.optional_ofText?, hchildren, Json.Tree.ofJson, Reader.string]

/-- **Devices are read back** however they are written, if there is room for two containers in each
generation: an object, and the list of what the device carries. -/
theorem readerTo_of_writes {f : BlockDevice → Json} (hf : Writes f) (depth : Nat)
    {d : BlockDevice} {room : Nat} (hdepth : d.generations ≤ depth)
    (hroom : 2 * d.generations ≤ room) : readerTo depth room (.ofJson (f d)) = some d := by
  induction depth generalizing d room with
  | zero =>
      rw [generations_eq] at hdepth
      contradiction
  | succ depth ih =>
      rw [generations_eq] at hdepth hroom
      obtain ⟨room, rfl⟩ := Nat.exists_eq_add_of_le' (Nat.le_trans (Nat.le_add_left 2 _) hroom)
      obtain ⟨members, hmembers, hperm⟩ := hf d
      have hread : ∀ c ∈ d.children, readerTo depth room (.ofJson (f c)) = some (id c) := by
        intro c hc
        have hlist := listGenerations_le_iff.mp (Nat.le_refl _) c hc
        exact ih (by omega) (by omega)
      have hchildren := Reader.list_ofJson d.children hread
      rw [List.map_id] at hchildren
      rw [hmembers]
      exact readerTo_of_perm hperm hchildren

/-! ### the two ways to write them -/

theorem listToJson_eq_map (ds : List BlockDevice) : listToJson ds = ds.map toJson := by
  induction ds with
  | nil => rfl
  | cons d ds ih => rw [listToJson, ih, List.map_cons]

theorem toJson_eq (d : BlockDevice) : d.toJson = .object (d.fields (d.children.map toJson)) := by
  cases d
  rw [toJson, listToJson_eq_map]
  rfl

theorem writes_toJson : Writes toJson := fun d => ⟨_, d.toJson_eq, .refl _⟩

theorem rereadMembers_fields (d : BlockDevice) (children : List Json) :
    Json.rereadMembers (d.fields children) = d.fields (children.map Json.reread) := by
  simp only [fields, Json.rereadMembers, Json.reread_ofText?, Json.reread, Json.rereadItems_eq_map]

/-- What is read back of a device that was written has its fields in another order. -/
theorem writes_reread : Writes fun d => d.toJson.reread := by
  intro d
  refine ⟨_, ?_, Json.sortMembers_perm (d.nodup_fields _)⟩
  show d.toJson.reread = _
  rw [toJson_eq, Json.reread, rereadMembers_fields, List.map_map]
  rfl

mutual

/-- There are no numbers in a device. -/
theorem allNumbers_toJson (p : Json.Number → Bool) : ∀ d : BlockDevice,
    d.toJson.allNumbers p = true
  | ⟨_, size, kind, mountpoint, fstype, model, children⟩ => by
      simp only [toJson, Json.allNumbers, Json.allInMembers, Json.allNumbers_ofText?,
        allInItems_listToJson p children, Bool.and_true]

theorem allInItems_listToJson (p : Json.Number → Bool) : ∀ ds : List BlockDevice,
    Json.allInItems p (listToJson ds) = true
  | [] => rfl
  | d :: ds => by
      rw [listToJson, Json.allInItems, allNumbers_toJson p d, allInItems_listToJson p ds]
      rfl

end

mutual

/-- A generation takes two containers: an object, and the list of what the device carries. -/
theorem depth_toJson : ∀ d : BlockDevice, d.toJson.depth = 2 * d.generations
  | ⟨_, size, kind, mountpoint, fstype, model, children⟩ => by
      have hchildren := itemsDepth_listToJson children
      simp only [toJson, Json.depth, Json.membersDepth, Json.depth_ofText?, generations]
      omega

theorem itemsDepth_listToJson : ∀ ds : List BlockDevice,
    Json.itemsDepth (listToJson ds) = 2 * listGenerations ds
  | [] => rfl
  | d :: ds => by
      rw [listToJson, Json.itemsDepth, depth_toJson d, itemsDepth_listToJson ds, listGenerations,
        Nat.mul_max_mul_left]

end

end BlockDevice

/-! ## facts -/

namespace Facts

/-- The fields of facts in an object, with what is written of the devices. -/
def fields (f : Facts) (devices : List Json) : List (String × Json) :=
  [("uefi", .bool f.uefi), ("network", .bool f.network), ("hostname", .ofText? f.hostname),
    ("timezone", .ofText? f.timezone), ("target_mounted", .bool f.targetMounted),
    ("users", .strings f.users), ("devices", .array devices)]

variable (f : Facts)

theorem toJson_eq : f.toJson = .object (f.fields (f.devices.map BlockDevice.toJson)) := by
  rw [toJson, BlockDevice.listToJson_eq_map]
  rfl

theorem names_fields (devices : List Json) :
    (f.fields devices).map Prod.fst =
      ["uefi", "network", "hostname", "timezone", "target_mounted", "users", "devices"] := rfl

theorem nodup_fields (devices : List Json) : ((f.fields devices).map Prod.fst).Nodup := by
  rw [names_fields]
  decide

theorem reread_toJson :
    f.toJson.reread =
      .ofMembers (f.fields (f.devices.map fun d => d.toJson.reread)) := by
  rw [toJson_eq, Json.reread]
  simp only [fields, Json.rereadMembers, Json.reread_ofText?, Json.reread_strings, Json.reread,
    Json.rereadItems_eq_map, List.map_map]
  rfl

variable {f}

/-- **Facts are read back** from an object with their fields in any order. -/
theorem reader_of_perm {g : BlockDevice → Json} (hg : BlockDevice.Writes g)
    (h : BlockDevice.listGenerations f.devices ≤ 62) {members : List (String × Json)}
    (hmembers : members.Perm (f.fields (f.devices.map g))) :
    reader Json.maxDepth (.ofJson (.object members)) = some f := by
  have hread : ∀ d ∈ f.devices, BlockDevice.reader 125 (.ofJson (g d)) = some (id d) := by
    intro d hd
    have hgenerations := BlockDevice.listGenerations_le_iff.mp h d hd
    exact BlockDevice.readerTo_of_writes hg _ (Nat.le_trans hgenerations (by decide)) (by omega)
  have hdevices := Reader.list_ofJson f.devices hread
  have husers : Reader.list .string 126 (.ofJson (.array (f.users.map .string))) =
      some (f.users.map id) := Reader.list_ofJson f.users fun _ _ => rfl
  rw [List.map_id, Json.Tree.ofJson] at hdevices husers
  refine (Reader.record_perm hmembers (f.nodup_fields _) true _ 126).trans ?_
  simp [fields, Json.strings, Reader.Fields.optional, Reader.Fields.withDefault,
    Reader.Fields.slot, Reader.optional_ofText?, hdevices, husers, Json.Tree.ofJson, Reader.bool]

/-- No field of facts is taken for a listing. -/
theorem member?_fields {devices : List Json} {members : List (String × Json)}
    (hmembers : members.Perm (f.fields devices)) :
    (Json.object members).member? "blockdevices" = none := by
  have hkeys := (hmembers.map Prod.fst).mem_iff (a := "blockdevices")
  have hnone : "blockdevices" ∉ members.map Prod.fst := by
    rw [hkeys, names_fields]
    decide
  rw [Json.member?, Option.map_eq_none_iff, List.find?_eq_none]
  intro member hmember heq
  exact hnone (List.mem_map.mpr ⟨member, hmember, by simpa using heq⟩)

variable (f) in
theorem allNumbers_toJson (p : Json.Number → Bool) : f.toJson.allNumbers p = true := by
  simp only [toJson, Json.allNumbers, Json.allInMembers, Json.allNumbers_ofText?,
    Json.allNumbers_strings, BlockDevice.allInItems_listToJson, Bool.and_true]

theorem depth_toJson_le (h : BlockDevice.listGenerations f.devices ≤ 62) :
    f.toJson.depth ≤ Json.maxDepth := by
  simp only [toJson, Json.depth, Json.membersDepth, Json.depth_ofText?, Json.depth_strings,
    BlockDevice.itemsDepth_listToJson, Json.maxDepth]
  omega

/-- **Saved facts come back** from every text that spells them. -/
theorem ofText_eq_ok (h : BlockDevice.listGenerations f.devices ≤ 62) {text : String}
    (htext : Json.Tree.parse? text = some (.ofJson f.toJson)) : ofText text = .ok f := by
  have hvalue := Json.Tree.value?_ofJson f.toJson
    (f.allNumbers_toJson _) (depth_toJson_le h)
  have hperm := Json.sortMembers_perm (f.nodup_fields (f.devices.map fun d => d.toJson.reread))
  rw [reread_toJson, Json.ofMembers] at hvalue
  rw [ofText, Json.parse?, htext, Option.bind_some, hvalue]
  simp only [member?_fields hperm, reader_of_perm BlockDevice.writes_reread h hperm]
  rfl

/-! ### listings -/

/-- A listing of devices. -/
def listingJson (ds : List BlockDevice) : Json :=
  .object [("blockdevices", .array (BlockDevice.listToJson ds))]

theorem allNumbers_listingJson (p : Json.Number → Bool) (ds : List BlockDevice) :
    (listingJson ds).allNumbers p = true :=
  (Bool.and_true _).trans (BlockDevice.allInItems_listToJson p ds)

/-- **A listing comes back** as facts of which only the devices are known, from every text that
spells it. -/
theorem ofText_listing {ds : List BlockDevice} (h : BlockDevice.listGenerations ds ≤ 62)
    {text : String} (htext : Json.Tree.parse? text = some (.ofJson (listingJson ds))) :
    ofText text = .ok { devices := ds } := by
  have hdepth : (listingJson ds).depth ≤ Json.maxDepth := by
    simp only [listingJson, Json.depth, Json.membersDepth, BlockDevice.itemsDepth_listToJson,
      Json.maxDepth]
    omega
  have hvalue := Json.Tree.value?_ofJson (listingJson ds)
    (allNumbers_listingJson _ ds) hdepth
  have hread : ∀ d ∈ ds, BlockDevice.reader 125 (.ofJson d.toJson) = some (id d) := by
    intro d hd
    have hgenerations := BlockDevice.listGenerations_le_iff.mp h d hd
    exact BlockDevice.readerTo_of_writes BlockDevice.writes_toJson _
      (Nat.le_trans hgenerations (by decide)) (by omega)
  have hdevices := Reader.list_ofJson ds hread
  rw [List.map_id] at hdevices
  have hlisting : listing text = .ok ds := by
    have hrecord :
        BlockDevice.listingReader Json.maxDepth (.ofJson (listingJson ds)) = some ds := by
      rw [listingJson, BlockDevice.listToJson_eq_map]
      exact hdevices
    rw [listing, Reader.parse?, htext, Option.bind_some, hrecord]
  rw [ofText, Json.parse?, htext, Option.bind_some, hvalue, hlisting]
  rfl

/-! ## files -/

/-- Whatever file holds these bytes, the facts are loaded from it. -/
def LoadedFrom (f : Facts) (bytes : List UInt8) : Prop :=
  ∀ (input : List UInt8) (time : String) (s : Host.Session) (path : String),
    s.directory.read? path = some bytes →
      Host.perform ((Host.ofDirectory input time).savedFacts path) s = (.ok f, s)

theorem loadedFrom_of_ofText {text : String} (h : ofText text = .ok f) :
    f.LoadedFrom (Text.Utf8.encode text) := by
  intro input time s path hread
  have htext : Host.perform ((Host.ofDirectory input time).needText
      s!"failed to read facts file: {path}" path) s = (.ok text, s) := by
    rw [Host.perform_needText, hread, Option.bind_some, Text.Utf8.encode,
      Text.Utf8.decode?_encodeChars]
    simp only [String.ofList_toList]
  rw [Host.savedFacts, Host.perform_bind, htext]
  simp only [h, Host.perform_mk_pure]

theorem LoadedFrom.factsSource {bytes : List UInt8} (h : f.LoadedFrom bytes) {input : List UInt8}
    {time : String} {s : Host.Session} {path : String} (hread : s.directory.read? path = some bytes)
    (c : Config) :
    Host.perform (Command.factsSource (.ofDirectory input time) c (some path)) s =
      (.ok (.saved f), s) := by
  rw [Command.factsSource, Option.some_or]
  simp only [Host.perform_bind, h input time s path hread, Host.perform_pure]

/-- The facts of a source are printed as JSON. -/
theorem run_showFacts {world : Type} {host : Host (StateM world)} {c : Config}
    {file : Option String} {source : Command.FactsSource} {w w₁ w₂ : world}
    (hsource : (Command.factsSource host c file).run.run w = (.ok source, w₁))
    (hfacts : (source.facts host).run w₁ = (f, w₂)) :
    (Command.showFacts host c file true).run.run w =
      (.ok (), ((host.printLine f.toJson.pretty).run w₂).2) := by
  have hrun : (Command.showFacts host c file true).run.run w =
      (ExceptT.bindCont (fun source : Command.FactsSource => (do
        let facts ← (source.facts host : StateM world Facts)
        host.printLine facts.toJson.pretty : Task (StateM world) Unit))
        ((Command.factsSource host c file).run.run w).1).run
          ((Command.factsSource host c file).run.run w).2 := rfl
  rw [hrun, hsource]
  have hprint : (ExceptT.bindCont (fun source : Command.FactsSource => (do
        let facts ← (source.facts host : StateM world Facts)
        host.printLine facts.toJson.pretty : Task (StateM world) Unit)) (.ok source)).run w₁ =
      (.ok (), ((host.printLine ((source.facts host).run w₁).1.toJson.pretty).run
        ((source.facts host).run w₁).2).2) := rfl
  rw [hprint, hfacts]

theorem body_handle {world : Type} (server : Server (StateM world)) (body : List UInt8)
    (w : world) :
    ((server.handle ⟨"GET", "/api/facts", body⟩).run w).1.body =
      Text.Utf8.encode (server.facts.run w).1.toJson.compact := by
  have hresource : Resource.ofPath? (Resource.pathOf "/api/facts") = some .facts := by decide
  unfold Server.handle
  simp only [hresource]
  rfl

/-- **Saved facts come back.**  Facts whose devices have at most 62 generations are loaded from what
the command prints of them as JSON, and from the body that a server answers with; the JSON listing
of their devices alone is loaded as facts of which nothing else is known. -/
theorem loadedFrom_saved {f : Facts} (h : BlockDevice.listGenerations f.devices ≤ 62) :
    (∀ {world : Type} {host : Host (StateM world)} {c : Config} {file : Option String}
      {source : Command.FactsSource} {w w₁ w₂ : world},
        (Command.factsSource host c file).run.run w = (.ok source, w₁) →
        (source.facts host).run w₁ = (f, w₂) →
        (Command.showFacts host c file true).run.run w =
          (.ok (), ((host.print (f.toJson.pretty ++ "\n")).run w₂).2)) ∧
      f.LoadedFrom (Text.Utf8.encode (f.toJson.pretty ++ "\n")) ∧
      (∀ {world : Type} (server : Server (StateM world)) (body : List UInt8) (w : world),
        (server.facts.run w).1 = f →
        f.LoadedFrom ((server.handle ⟨"GET", "/api/facts", body⟩).run w).1.body) ∧
      LoadedFrom { devices := f.devices } (Text.Utf8.encode (listingJson f.devices).compact) ∧
      LoadedFrom { devices := f.devices } (Text.Utf8.encode (listingJson f.devices).pretty) := by
  refine ⟨run_showFacts, ?printed, ?answered, ?line, ?indented⟩
  case printed =>
    exact loadedFrom_of_ofText (ofText_eq_ok h (Json.Tree.parse?_pretty_break (f.allNumbers_toJson _)))
  case answered =>
    intro world server body w hfacts
    rw [body_handle, hfacts]
    exact loadedFrom_of_ofText (ofText_eq_ok h (Json.Tree.parse?_compact (f.allNumbers_toJson _)))
  case line =>
    have hlisting := Json.Tree.parse?_compact (allNumbers_listingJson _ f.devices)
    exact loadedFrom_of_ofText (ofText_listing h hlisting)
  case indented =>
    have hlisting := Json.Tree.parse?_pretty (allNumbers_listingJson _ f.devices)
    exact loadedFrom_of_ofText (ofText_listing h hlisting)

/-- A disk whose partition carries a mapping. -/
def encryptedDisk : BlockDevice :=
  let volume : BlockDevice := ⟨"root", "1T", "crypt", "/mnt", "ext4", none, []⟩
  let partition : BlockDevice := ⟨"sda1", "1T", "part", none, none, none, [volume]⟩
  ⟨"sda", "1T", "disk", none, none, "a \"drive\"", [partition]⟩

/-- The facts in a file are shown as the file has them. -/
theorem loadedFrom_saved_encrypted :
    let f : Facts := { hostname := "arch\tiso", users := ["ada"], devices := [encryptedDisk] }
    let saved := f.toJson.pretty ++ "\n"
    let s : Host.Session := ⟨⟨[(["facts.json"], .file (Text.Utf8.encode saved))]⟩, ""⟩
    Host.perform (Command.showFacts (.ofDirectory [] "") {} (some "facts.json") true) s =
      (.ok (), { s with printed := saved }) := by
  intro f saved s
  have h : BlockDevice.listGenerations f.devices ≤ 62 := by decide
  obtain ⟨hshow, hloaded, -⟩ := loadedFrom_saved h
  have hsource : Host.perform (Command.factsSource (.ofDirectory [] "") {} (some "facts.json")) s =
      (.ok (.saved f), s) := hloaded.factsSource rfl {}
  have hprint : (((Host.ofDirectory [] "").print saved).run s).2 = { s with printed := saved } :=
    congrArg (fun printed => { s with printed }) String.empty_append
  rw [Host.perform, hshow hsource rfl, hprint]

end Facts

end InstallAssistant
