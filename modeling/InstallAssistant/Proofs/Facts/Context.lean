import InstallAssistant.Proofs.Device.Guard
import InstallAssistant.Proofs.Text.Occurrence

/-!
# InstallAssistant.Proofs.Facts.Context

A model is shown the devices that the guard lets pass.  The facts block and the
list of device paths walk over the devices apart from each other; read line by
line, the block shows the paths of the list, in its order
(`shownPaths_context`).

A line shows a path when it has the form of a device line, whatever section it
stands in (`shownPath?_eq_some_iff`), so the theorem also says that no other line
of the block has this form.
-/

namespace InstallAssistant

/-! ## devices below devices -/

namespace BlockDevice

mutual

/-- A device and everything below it, a parent before its children. -/
def nodes (d : BlockDevice) : List BlockDevice :=
  match d with
  | ⟨name, size, kind, mountpoint, fstype, model, children⟩ =>
    ⟨name, size, kind, mountpoint, fstype, model, children⟩ :: listNodes children

def listNodes : List BlockDevice → List BlockDevice
  | [] => []
  | d :: ds => nodes d ++ listNodes ds

end

/-- What is said of a device. -/
def texts (d : BlockDevice) : List String :=
  d.name :: (d.size.toList ++ d.kind.toList ++ d.mountpoint.toList ++ d.fstype.toList ++
    d.model.toList)

mutual

theorem paths_eq_map_nodes : ∀ d : BlockDevice, d.paths = d.nodes.map path
  | ⟨name, size, kind, mountpoint, fstype, model, children⟩ => by
      rw [paths, nodes, List.map_cons, listPaths_eq_map_listNodes children]
      rfl

theorem listPaths_eq_map_listNodes :
    ∀ ds : List BlockDevice, listPaths ds = (listNodes ds).map path
  | [] => rfl
  | d :: ds => by
      rw [listPaths, listNodes, List.map_append, paths_eq_map_nodes d,
        listPaths_eq_map_listNodes ds]

end

theorem mem_listNodes_iff {d : BlockDevice} {ds : List BlockDevice} :
    d ∈ listNodes ds ↔ ∃ top ∈ ds, d ∈ top.nodes := by
  induction ds with
  | nil => simp [listNodes]
  | cons top ds ih => simp [listNodes, ih]

/-- A device of which a line can tell: nothing said of it has a line break, and its name does not
hold what ends a name. -/
structure Listable (d : BlockDevice) : Prop where
  unbroken : ∀ s ∈ d.texts, '\n' ∉ s.toList
  name : ¬ [':', ' '] <:+: d.name.toList

end BlockDevice

namespace Facts

open Text

/-! ## lines that show devices -/

/-- The path that a line of a facts block shows: blanks, `- /dev/`, a name, and what is said of the
device after the first colon with a blank behind it. -/
def shownPath? (line : List Char) : Option String :=
  (after? "- /dev/".toList (line.dropWhile (· == ' '))).bind fun rest =>
    (cut? [':', ' '] rest).map fun (name, _) => "/dev/" ++ String.ofList name

/-- The paths that the lines of a text show, in order. -/
def shownPaths (text : String) : List String :=
  (text.toList.splitOn '\n').filterMap shownPath?

theorem shownPath?_eq_some_iff {line : List Char} {path : String} :
    shownPath? line = some path ↔
      ∃ indent name rest,
        line = List.replicate indent ' ' ++ ("- /dev/".toList ++ (name ++ ([':', ' '] ++ rest))) ∧
          ¬ [':', ' '] <:+: name ∧ path = "/dev/" ++ String.ofList name := by
  have hcolon : ':' ∉ [' '] := by decide
  constructor
  · intro h
    obtain ⟨rest, hrest, hname⟩ := Option.bind_eq_some_iff.mp h
    obtain ⟨⟨name, size⟩, hcut, rfl⟩ := Option.map_eq_some_iff.mp hname
    obtain ⟨rfl, hfirst⟩ := (cut?_eq_some_iff hcolon).mp hcut
    refine ⟨(line.takeWhile (· == ' ')).length, name, size, ?_, hfirst, rfl⟩
    have hblank : line.takeWhile (· == ' ') =
        List.replicate (line.takeWhile (· == ' ')).length ' ' := by
      refine List.eq_replicate_of_mem fun c hc => ?_
      simpa using List.mem_takeWhile_imp hc
    have hsplit := List.takeWhile_append_dropWhile (p := (· == ' ')) (l := line)
    rw [after?_eq_some_iff.mp hrest, hblank] at hsplit
    exact hsplit.symm
  · rintro ⟨indent, name, rest, rfl, hfirst, rfl⟩
    have hdrop : (List.replicate indent ' ' ++ ("- /dev/".toList ++ (name ++ ([':', ' '] ++ rest)))
        ).dropWhile (· == ' ') = "- /dev/".toList ++ (name ++ ([':', ' '] ++ rest)) := by
      rw [List.dropWhile_append_of_pos (by simp)]
      rfl
    rw [shownPath?, hdrop, after?_eq_some_iff.mpr rfl, Option.bind_some,
      (cut?_eq_some_iff hcolon).mpr ⟨rfl, hfirst⟩]
    rfl

/-- Lines without breaks that show some paths, in order. -/
structure Show (lines paths : List String) : Prop where
  unbroken : ∀ line ∈ lines, '\n' ∉ line.toList
  shown : lines.filterMap (fun line => shownPath? line.toList) = paths

namespace Show

variable {lines lines' paths paths' : List String} {line path : String}

theorem nil : Show [] [] := ⟨by simp, rfl⟩

theorem append (h : Show lines paths) (h' : Show lines' paths') :
    Show (lines ++ lines') (paths ++ paths') where
  unbroken := fun line hline => (List.mem_append.mp hline).elim (h.unbroken line) (h'.unbroken line)
  shown := by rw [List.filterMap_append, h.shown, h'.shown]

theorem cons_path (hbreak : '\n' ∉ line.toList) (hline : shownPath? line.toList = some path)
    (h : Show lines paths) : Show (line :: lines) (path :: paths) where
  unbroken := List.forall_mem_cons.mpr ⟨hbreak, h.unbroken⟩
  shown := by rw [List.filterMap_cons, hline, ← h.shown]

theorem cons_other (hbreak : '\n' ∉ line.toList) (hline : shownPath? line.toList = none)
    (h : Show lines paths) : Show (line :: lines) paths where
  unbroken := List.forall_mem_cons.mpr ⟨hbreak, h.unbroken⟩
  shown := by rw [List.filterMap_cons, hline, h.shown]

end Show

/-! ## device lines -/

theorem newline_notMem_getD {text? : Option String} {d : String} (hd : '\n' ∉ d.toList)
    (h : ∀ s ∈ text?, '\n' ∉ s.toList) : '\n' ∉ (text?.getD d).toList := by
  cases text? with
  | none => exact hd
  | some s => exact h s rfl

theorem newline_notMem_wrapped (front back : String) {text? : Option String}
    (hfront : '\n' ∉ front.toList) (hback : '\n' ∉ back.toList)
    (h : ∀ s ∈ text?, '\n' ∉ s.toList) : '\n' ∉ (wrapped front back text?).toList := by
  cases text? with
  | none => simp [wrapped]
  | some s =>
      by_cases hempty : s.isEmpty = true
      · simp [wrapped, hempty]
      · rw [wrapped, if_neg hempty]
        exact notMem_toList_append (notMem_toList_append hfront (h s rfl)) hback

theorem newline_notMem_nonBlank? {text? : Option String} (h : ∀ s ∈ text?, '\n' ∉ s.toList) :
    ∀ t ∈ text?.bind nonBlank?, '\n' ∉ t.toList := by
  intro t ht
  obtain ⟨s, hs, hkept⟩ := Option.bind_eq_some_iff.mp ht
  obtain ⟨htrim, _⟩ := nonBlank?_eq_some_iff.mp hkept
  rw [← htrim]
  exact fun hin => h s hs ((trimChars_isInfix _).subset hin)

section

variable {d : BlockDevice} {line : String}

/-- A line that names a device shows its path. -/
theorem shownPath?_of_listable (h : d.Listable) (indent : Nat)
    (hline : ∃ rest, line.toList =
      List.replicate indent ' ' ++ ("- /dev/".toList ++ (d.name.toList ++ ([':', ' '] ++ rest)))) :
    shownPath? line.toList = some d.path := by
  obtain ⟨rest, hrest⟩ := hline
  refine shownPath?_eq_some_iff.mpr ⟨indent, d.name.toList, rest, hrest, h.name, ?_⟩
  rw [String.ofList_toList, BlockDevice.path]

theorem unbroken_of_listable (h : d.Listable) :
    '\n' ∉ d.name.toList ∧ (∀ s ∈ d.size, '\n' ∉ s.toList) ∧
      (∀ s ∈ d.mountpoint, '\n' ∉ s.toList) ∧ (∀ s ∈ d.fstype, '\n' ∉ s.toList) ∧
      ∀ s ∈ d.model, '\n' ∉ s.toList := by
  have hunbroken := h.unbroken
  simp only [BlockDevice.texts, List.mem_cons, List.mem_append, Option.mem_toList] at hunbroken
  exact ⟨hunbroken _ (.inl rfl), fun s hs => hunbroken s (by simp [Option.mem_def.mp hs]),
    fun s hs => hunbroken s (by simp [Option.mem_def.mp hs]),
    fun s hs => hunbroken s (by simp [Option.mem_def.mp hs]),
    fun s hs => hunbroken s (by simp [Option.mem_def.mp hs])⟩

end

mutual

/-- **A device below a disk** and what it carries, at any depth. -/
theorem show_deviceLines : ∀ (d : BlockDevice) (depth : Nat), (∀ e ∈ d.nodes, e.Listable) →
    Show (deviceLines depth d) d.paths
  | ⟨name, size, kind, mountpoint, fstype, model, children⟩, depth, h => by
      rw [BlockDevice.nodes, List.forall_mem_cons] at h
      obtain ⟨hname, hsize, hmount, hfs, _⟩ := unbroken_of_listable h.1
      rw [deviceLines, BlockDevice.paths]
      refine (show_deviceListLines children (depth + 1) h.2).cons_path ?_ ?_
      · have hsize := newline_notMem_getD (d := "?") (by decide) hsize
        have hfs := newline_notMem_wrapped " [" "]" (by decide) (by decide) hfs
        have hmount := newline_notMem_wrapped " mounted at " "" (by decide) (by decide) hmount
        simp only [String.toList_append, List.mem_append, not_or]
        exact ⟨⟨⟨⟨⟨⟨by simp, by decide⟩, hname⟩, by decide⟩, hsize⟩, hfs⟩, hmount⟩
      · refine shownPath?_of_listable h.1 (2 * depth) ⟨(size.getD "?" ++ wrapped " [" "]" fstype ++
          wrapped " mounted at " "" mountpoint).toList, ?_⟩
        simp only [String.toList_append, String.toList_ofList, List.append_assoc]
        rfl

theorem show_deviceListLines : ∀ (ds : List BlockDevice) (depth : Nat),
    (∀ e ∈ BlockDevice.listNodes ds, e.Listable) →
    Show (deviceListLines depth ds) (BlockDevice.listPaths ds)
  | [], _, _ => Show.nil
  | d :: ds, depth, h => by
      rw [BlockDevice.listNodes, List.forall_mem_append] at h
      rw [deviceListLines, BlockDevice.listPaths]
      exact (show_deviceLines d depth h.1).append (show_deviceListLines ds depth h.2)

end

/-- **A disk** and what it carries. -/
theorem show_diskLines {d : BlockDevice} (h : ∀ e ∈ d.nodes, e.Listable) :
    Show (diskLines d) d.paths := by
  obtain ⟨name, size, kind, mountpoint, fstype, model, children⟩ := d
  rw [BlockDevice.nodes, List.forall_mem_cons] at h
  obtain ⟨hname, hsize, _, _, hmodel⟩ := unbroken_of_listable h.1
  rw [diskLines, BlockDevice.paths]
  refine (show_deviceListLines children 1 h.2).cons_path ?_ ?_
  · have hsize := newline_notMem_getD (d := "?") (by decide) hsize
    have hmodel := newline_notMem_getD (d := "Unknown") (by decide)
      (newline_notMem_nonBlank? hmodel)
    simp only [BlockDevice.path, toString, String.toList_append, List.mem_append, not_or]
    exact ⟨⟨⟨⟨⟨⟨by decide, by decide, hname⟩, by decide⟩, hsize⟩, by decide⟩, hmodel⟩, by decide⟩
  · refine shownPath?_of_listable h.1 0
      ⟨(size.getD "?" ++ " (" ++ (model.bind nonBlank?).getD "Unknown" ++ ")").toList, ?_⟩
    simp only [BlockDevice.path, toString, String.toList_append, List.append_assoc]
    rfl

theorem show_disks {ds : List BlockDevice} (h : ∀ e ∈ BlockDevice.listNodes ds, e.Listable) :
    Show (ds.flatMap diskLines) (BlockDevice.listPaths ds) := by
  induction ds with
  | nil => exact Show.nil
  | cons d ds ih =>
      rw [BlockDevice.listNodes, List.forall_mem_append] at h
      rw [List.flatMap_cons, BlockDevice.listPaths]
      exact (show_diskLines h.1).append (ih h.2)

/-! ## the block -/

/-- The lines of the facts block. -/
def contextLines (f : Facts) : List String :=
  ["## Current System State", "",
    "- Boot mode: " ++ (if f.uefi then "UEFI" else "Legacy BIOS"),
    "- Network: " ++ (if f.network then "Connected" else "Not connected"),
    "- Hostname: " ++ f.hostname.getD "unknown",
    "- Timezone: " ++ f.timezone.getD "not set"] ++
  titled "## Available Disks" (f.disks.flatMap diskLines) ++
  titled "## Current Mounts"
    (if f.targetMounted then ["Target partitions are mounted under /mnt"] else []) ++
  (if f.users.isEmpty then [] else ["", "## Existing Users: " ++ join ", " f.users])

theorem context_eq (f : Facts) : f.context = join "\n" f.contextLines := rfl

/-- Facts that a block can tell of: nothing in them has a line break, and their devices can be
listed. -/
structure Listable (f : Facts) : Prop where
  hostname : ∀ s ∈ f.hostname, '\n' ∉ s.toList
  timezone : ∀ s ∈ f.timezone, '\n' ∉ s.toList
  users : ∀ s ∈ f.users, '\n' ∉ s.toList
  devices : ∀ d ∈ BlockDevice.listNodes f.devices, d.Listable

theorem show_titled (title : String) {lines paths : List String} (hbreak : '\n' ∉ title.toList)
    (htitle : shownPath? title.toList = none) (h : Show lines paths) :
    Show (titled title lines) paths := by
  cases lines with
  | nil => exact h
  | cons line lines =>
      have hempty : '\n' ∉ "".toList := by decide
      exact ((h.cons_other hempty rfl).cons_other hbreak htitle).cons_other hempty rfl

/-- A line that says something else first shows no device. -/
theorem show_said (front : String) {text : String} (hfront : '\n' ∉ front.toList)
    (htext : '\n' ∉ text.toList) (hother : ∀ s, shownPath? (front.toList ++ s) = none) :
    Show [front ++ text] [] := by
  refine Show.nil.cons_other (notMem_toList_append hfront htext) ?_
  rw [String.toList_append]
  exact hother text.toList

theorem show_contextLines {f : Facts} (h : f.Listable) : Show f.contextLines f.devicePaths := by
  have hdisks : ∀ e ∈ BlockDevice.listNodes f.disks, e.Listable := by
    intro e he
    obtain ⟨disk, hdisk, hbelow⟩ := BlockDevice.mem_listNodes_iff.mp he
    exact h.devices e
      (BlockDevice.mem_listNodes_iff.mpr ⟨disk, List.mem_of_mem_filter hdisk, hbelow⟩)
  have hhead : Show ["## Current System State", ""] [] :=
    (Show.nil.cons_other (by decide) rfl).cons_other (by decide) rfl
  have hboot : Show ["- Boot mode: " ++ (if f.uefi then "UEFI" else "Legacy BIOS")] [] :=
    show_said _ (by decide) (by cases f.uefi <;> decide) fun _ => rfl
  have hnetwork : Show ["- Network: " ++ (if f.network then "Connected" else "Not connected")] [] :=
    show_said _ (by decide) (by cases f.network <;> decide) fun _ => rfl
  have hhostname : Show ["- Hostname: " ++ f.hostname.getD "unknown"] [] :=
    show_said _ (by decide) (newline_notMem_getD (by decide) h.hostname) fun _ => rfl
  have htimezone : Show ["- Timezone: " ++ f.timezone.getD "not set"] [] :=
    show_said _ (by decide) (newline_notMem_getD (by decide) h.timezone) fun _ => rfl
  have hmounts : Show (titled "## Current Mounts"
      (if f.targetMounted then ["Target partitions are mounted under /mnt"] else [])) [] := by
    refine show_titled _ (by decide) rfl ?_
    cases f.targetMounted with
    | false => exact Show.nil
    | true => exact Show.nil.cons_other (by decide) rfl
  have husers : Show
      (if f.users.isEmpty then [] else ["", "## Existing Users: " ++ join ", " f.users]) [] := by
    cases hempty : f.users.isEmpty with
    | true => exact Show.nil
    | false =>
        have hjoin : '\n' ∉ (join ", " f.users).toList := notMem_toList_join (by decide) h.users
        have hline := show_said "## Existing Users: " (by decide) hjoin fun _ => rfl
        exact hline.cons_other (by decide) rfl
  have hstate := hhead.append (hboot.append (hnetwork.append (hhostname.append htimezone)))
  have hlist := show_titled "## Available Disks" (by decide) rfl (show_disks hdisks)
  have hall := ((hstate.append hlist).append hmounts).append husers
  simpa [contextLines, devicePaths] using hall

/-- **The model is shown what the guard accepts**: the lines of a facts block that have the form of
a device line show the paths of all disks and of everything on them, at any depth, a parent before
its children; and these are the devices that the guard knows. -/
theorem shownPaths_context {f : Facts} (h : f.Listable) :
    shownPaths f.context = f.devicePaths ∧
      f.devicePaths = (BlockDevice.listNodes f.disks).map BlockDevice.path ∧
      ∀ path, (Device.Known.ofFacts f).contains path = true ↔ path ∈ f.devicePaths := by
  have hlines := show_contextLines h
  refine ⟨?_, BlockDevice.listPaths_eq_map_listNodes _,
    fun path => Device.Known.contains_ofFacts_iff⟩
  have hsplit : f.context.toList.splitOn '\n' = f.contextLines.map String.toList := by
    rw [context_eq, join, String.toList_intercalate]
    refine List.splitOn_intercalate '\n' ?_ (by simp [contextLines])
    simpa using hlines.unbroken
  rw [shownPaths, hsplit, List.filterMap_map]
  exact hlines.shown

/-- A machine whose hostname looks like a device line, with a volume inside a partition, a disk
whose name ends in a colon, and a loop device that is no disk. -/
def disguised : Facts where
  hostname := some "- /dev/sdz: 1T"
  targetMounted := true
  users := ["ada", "- /dev/sdy: 1T"]
  devices := [
    ⟨"loop0", some "700M", some "loop", none, some "squashfs", none, []⟩,
    ⟨"sda", some "500G", some "disk", none, none, some " Samsung ", [
      ⟨"sda1", none, some "part", some "/boot: efi", some "vfat", none, []⟩,
      ⟨"sda2", none, some "part", none, some "crypto_LUKS", none, [
        ⟨"mapper/root", none, some "crypt", some "/mnt", none, none, []⟩]⟩]⟩,
    ⟨"sdb:", some "1T", some "disk", none, none, none, []⟩]

theorem shownPaths_disguised :
    disguised.Listable ∧ shownPaths disguised.context =
      ["/dev/sda", "/dev/sda1", "/dev/sda2", "/dev/mapper/root", "/dev/sdb:"] := by
  have h : disguised.Listable := by
    refine ⟨by decide, by decide, by decide, ?_⟩
    intro d hd
    have hall : ∀ d ∈ BlockDevice.listNodes disguised.devices,
        (∀ s ∈ d.texts, '\n' ∉ s.toList) ∧ ¬ [':', ' '] <:+: d.name.toList := by decide
    exact ⟨(hall d hd).1, (hall d hd).2⟩
  exact ⟨h, (shownPaths_context h).1⟩

end Facts

end InstallAssistant
