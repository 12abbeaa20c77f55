import InstallAssistant.Proofs.Device.Guard
import InstallAssistant.Proofs.Device.Mention

/-!
# InstallAssistant.Proofs.Device.Word

Commands in which every word is either a device path, perhaps behind a key, or has
nothing to do with devices.  Of such a command exactly the devices among its words
are read, and the guard decides by them alone (`paths_of_plain`).
-/

namespace InstallAssistant.Device

/-! ## words that name devices -/

/-- What may stand in the name of a device. -/
def isDeviceChar (c : Char) : Bool := c.isAlphanum || c == '_' || c == '+' || c == '-'

/-- What may stand in a key, as `of` in `of=/dev/sda`. -/
def isKeyChar (c : Char) : Bool := c.isAlphanum || c == '_' || c == '-'

/-- Whether a text is the path of a device. -/
def isDevicePath (s : List Char) : Bool :=
  match Text.after? root s with
  | some name => !name.isEmpty && name.all isDeviceChar
  | none => false

/-- The device path that a word is, or that stands in it behind a key. -/
def device? (word : List Char) : Option (List Char) :=
  if isDevicePath word then some word
  else match word.dropWhile isKeyChar with
    | '=' :: path => if isDevicePath path then some path else none
    | _ => none

theorem isDevicePath_iff {s : List Char} :
    isDevicePath s = true ↔
      ∃ name, name ≠ [] ∧ (∀ c ∈ name, isDeviceChar c = true) ∧ s = root ++ name := by
  unfold isDevicePath
  cases h : Text.after? root s with
  | none =>
      constructor
      · intro hfalse
        contradiction
      · rintro ⟨name, _, _, rfl⟩
        exact absurd (List.prefix_append root name) (Text.after?_eq_none_iff.mp h)
  | some rest =>
      obtain rfl := Text.after?_eq_some_iff.mp h
      simp

theorem dropWhile_key {key : List Char} (hkey : ∀ c ∈ key, isKeyChar c = true)
    (path : List Char) : (key ++ '=' :: path).dropWhile isKeyChar = '=' :: path := by
  rw [List.dropWhile_append_of_pos hkey]
  rfl

/-- A path does not begin with a key. -/
theorem not_isDevicePath_of_key {key : List Char} (hkey : ∀ c ∈ key, isKeyChar c = true)
    (path : List Char) : isDevicePath (key ++ '=' :: path) = false := by
  by_contra h
  obtain ⟨name, _, _, heq⟩ := isDevicePath_iff.mp (by simpa using h)
  have hdrop := dropWhile_key hkey path
  rw [heq] at hdrop
  cases hdrop

theorem device?_eq_some_iff {word path : List Char} :
    device? word = some path ↔
      isDevicePath path = true ∧
        (word = path ∨ ∃ key, (∀ c ∈ key, isKeyChar c = true) ∧ word = key ++ '=' :: path) := by
  constructor
  · intro h
    unfold device? at h
    split at h
    · next hword =>
        obtain rfl := Option.some.inj h
        exact ⟨hword, .inl rfl⟩
    · split at h
      · next rest hdrop =>
          split at h
          · next hrest =>
              obtain rfl := Option.some.inj h
              refine ⟨hrest, .inr ⟨word.takeWhile isKeyChar, ?_, ?_⟩⟩
              · exact fun c hc => List.mem_takeWhile_imp hc
              · rw [← hdrop, List.takeWhile_append_dropWhile]
          · contradiction
      · contradiction
  · rintro ⟨hpath, rfl | ⟨key, hkey, rfl⟩⟩
    · rw [device?, if_pos hpath]
    · rw [device?, if_neg (by simp [not_isDevicePath_of_key hkey path]), dropWhile_key hkey]
      exact if_pos hpath

/-! ## what a word mentions -/

/-- What may stand in the name of a device may stand in a path, and ends none. -/
theorem properties_of_isDeviceChar {c : Char} (hc : isDeviceChar c = true) :
    isPathChar c = true ∧ isTrailing c = false ∧ Plain c := by
  have hpoint : c ≠ '.' := by
    rintro rfl
    exact absurd hc (by decide)
  have hcolon : c ≠ ':' := by
    rintro rfl
    exact absurd hc (by decide)
  have hslash : c ≠ '/' := by
    rintro rfl
    exact absurd hc (by decide)
  refine ⟨?_, by simp [isTrailing, hpoint, hcolon, hslash], hslash, hpoint⟩
  simp only [isDeviceChar, Bool.or_eq_true] at hc
  simp only [isPathChar, Bool.or_eq_true]
  tauto

/-- The path of a device is named where it stands alone, or in a pair of quotes. -/
theorem path?_of_isDevicePath {path : List Char} (h : isDevicePath path = true)
    {before : Option Char} (hbefore : ∀ c ∈ before, isNameChar c = false) {after : List Char}
    (hafter : after = [] ∨ (⟨before, path, after⟩ : Mention).isQuoted = true) :
    (⟨before, path, after⟩ : Mention).path? = some path := by
  obtain ⟨name, hne, hname, rfl⟩ := isDevicePath_iff.mp h
  refine Mention.path?_of_last hbefore ?_ ?_ hafter
  · rw [List.length_append]
    exact Nat.lt_add_of_pos_right (List.length_pos_iff.mpr hne)
  · intro c hc
    rw [List.getLast?_append_of_ne_nil root hne] at hc
    exact (properties_of_isDeviceChar (hname c (List.mem_of_getLast? hc))).2.1

theorem mentioned_of_isDevicePath {path : List Char} (h : isDevicePath path = true) :
    mentioned path = [path] := by
  obtain ⟨name, hne, hname, rfl⟩ := isDevicePath_iff.mp h
  have htake : name.takeWhile isPathChar = name :=
    List.takeWhile_eq_self_iff.mpr fun c hc => (properties_of_isDeviceChar (hname c hc)).1
  have hdrop : name.dropWhile isPathChar = [] :=
    List.dropWhile_eq_nil_iff.mpr fun c hc => (properties_of_isDeviceChar (hname c hc)).1
  rw [mentioned, collapse_root_append fun c hc => (properties_of_isDeviceChar (hname c hc)).2.2,
    mentionsFrom_root_append, htake, hdrop, mentionsFrom_nil, List.filterMap_cons,
    path?_of_isDevicePath h (by simp) (.inl rfl), List.filterMap_nil]

/-- A word with a key mentions what it mentions behind the key. -/
theorem mentioned_key_append {key : List Char} (hkey : ∀ c ∈ key, isKeyChar c = true)
    (path : List Char) : mentioned (key ++ '=' :: path) = mentioned path := by
  have hslash : '/' ∉ key := fun hmem => absurd (hkey '/' hmem) (by decide)
  have hpoint : '.' ∉ key := fun hmem => absurd (hkey '.' hmem) (by decide)
  have hplain : ∀ c ∈ key ++ ['='], Plain c := by
    intro c hc
    rcases List.mem_append.mp hc with hc | hc
    · exact ⟨fun h => hslash (h ▸ hc), fun h => hpoint (h ▸ hc)⟩
    · obtain rfl := List.mem_singleton.mp hc
      decide
  have hcollapse : collapse (key ++ '=' :: path) = key ++ '=' :: collapse path := by
    rw [List.append_cons, collapse_plain_append hplain, ← List.append_cons]
  have hnone : mentionsFrom none key = [] :=
    mentionsFrom_eq_nil (fun h => hslash (h.subset List.mem_cons_self)) none
  have hequal : ∀ c ∈ some '=', isNameChar c = false ∧ isQuote c = false := by
    rintro _ ⟨⟩
    decide
  rw [mentioned, hcollapse, mentionsFrom_append_cons (by decide), hnone, List.map_nil,
    List.nil_append, filterMap_path?_mentionsFrom hequal, mentioned]

theorem mentioned_of_device? {word path : List Char} (h : device? word = some path) :
    mentioned word = [path] := by
  obtain ⟨hpath, rfl | ⟨key, hkey, rfl⟩⟩ := device?_eq_some_iff.mp h
  · exact mentioned_of_isDevicePath hpath
  · rw [mentioned_key_append hkey, mentioned_of_isDevicePath hpath]

/-- A word without `dev` mentions nothing. -/
theorem mentioned_of_no_dev {word : List Char} (h : ¬ ['d', 'e', 'v'] <:+: word) :
    mentioned word = [] := by
  have hroot : ¬ root <:+: collapse word := by
    intro hin
    have hdev : ['d', 'e', 'v'] <:+: root := ⟨['/'], ['/'], rfl⟩
    have hplain : ∀ c ∈ ['d', 'e', 'v'], Plain c := List.all_iff_forall_prop.mp (by decide)
    exact h (isInfix_of_collapseFrom hplain (hdev.trans hin))
  rw [mentioned, mentionsFrom_eq_nil hroot, List.filterMap_nil]

/-! ## plain commands -/

/-- A word that names a device, or that has nothing to do with devices. -/
def IsPlainWord (word : List Char) : Prop :=
  ¬ ['d', 'e', 'v'] <:+: word ∨ (device? word).isSome = true

instance : DecidablePred IsPlainWord := fun _ => inferInstanceAs (Decidable (_ ∨ _))

/-- The devices among the words of a command, in the order of their first mention, each once. -/
def devices (command : String) : List String :=
  (((words command.toList).filterMap device?).map String.ofList).eraseDups

theorem mentioned_of_isPlainWord {word : List Char} (h : IsPlainWord word) :
    mentioned word = (device? word).toList := by
  cases hdevice : device? word with
  | some path => exact mentioned_of_device? hdevice
  | none => exact mentioned_of_no_dev (h.resolve_right (by simp [hdevice]))

theorem paths_eq_devices {command : String}
    (h : ∀ word ∈ words command.toList, IsPlainWord word) : paths command = devices command := by
  have hwords : (words command.toList).flatMap mentioned =
      (words command.toList).filterMap device? := by
    rw [List.filterMap_eq_flatMap_toList, List.flatMap_def, List.flatMap_def,
      List.map_congr_left fun word hword => mentioned_of_isPlainWord (h word hword)]
  rw [paths_eq, mentioned_eq_flatMap_words, hwords, devices]

theorem unknownPaths_eq_devices {command : String} (known : Known)
    (h : ∀ word ∈ words command.toList, IsPlainWord word) :
    unknownPaths known command = (devices command).filter fun path =>
      !(known.contains path || pseudoDevices.contains path) := by
  have hallows : ∀ path, known.allows path =
      (known.contains path || pseudoDevices.contains path) := fun path => Bool.or_comm _ _
  simp only [unknownPaths, paths_eq_devices h, hallows]

/-- **Devices are read exactly off plain commands**: their paths are the devices among their words,
and the guard lets them pass if each of these is known or a pseudo device, and otherwise replaces
them with an answer because of those that are neither. -/
theorem paths_of_plain {command : String}
    (h : ∀ word ∈ words command.toList, IsPlainWord word) :
    paths command = devices command ∧
    ∀ (known : Known) (thinking : Option String),
      (verify known ⟨.command, command, thinking⟩ = ⟨⟨.command, command, thinking⟩, none⟩ ↔
        ∀ path ∈ devices command, known.contains path = true ∨ path ∈ pseudoDevices) ∧
      ((∃ path ∈ devices command, ¬ (known.contains path = true ∨ path ∈ pseudoDevices)) →
        ∃ answer, verify known ⟨.command, command, thinking⟩ =
          ⟨⟨.text, answer, thinking⟩,
            some ⟨(devices command).filter fun path =>
              !(known.contains path || pseudoDevices.contains path)⟩⟩) := by
  refine ⟨paths_eq_devices h, fun known thinking => ?_⟩
  have hnil : unknownPaths known command = [] ↔
      ∀ path ∈ devices command, known.contains path = true ∨ path ∈ pseudoDevices := by
    rw [unknownPaths_eq_nil_iff, paths_eq_devices h]
    simp only [Known.allows_iff, or_comm]
  refine ⟨verify_eq_self_iff.trans hnil, ?_⟩
  rintro ⟨path, hpath, hunknown⟩
  have hne : unknownPaths known command ≠ [] := fun h => hunknown (hnil.mp h path hpath)
  rw [verify_of_unknown hne, unknownPaths_eq_devices known h]
  exact ⟨_, rfl⟩

/-- A command that overwrites a drive which is not there. -/
theorem paths_of_overwriting :
    let command := "mkdir -p /mnt;dd if=/dev/zero of=/dev/sdb && mount /dev/sda1 /mnt >/dev/null"
    (∀ word ∈ words command.toList, IsPlainWord word) ∧
      paths command = ["/dev/zero", "/dev/sdb", "/dev/sda1", "/dev/null"] ∧
      ∃ answer, verify ⟨["/dev/sda1"]⟩ ⟨.command, command, some "Erase it."⟩ =
        ⟨⟨.text, answer, some "Erase it."⟩, some ⟨["/dev/sdb"]⟩⟩ := by
  intro command
  have hplain : ∀ word ∈ words command.toList, IsPlainWord word := by decide +kernel
  have hdevices : devices command = ["/dev/zero", "/dev/sdb", "/dev/sda1", "/dev/null"] := by
    decide +kernel
  obtain ⟨hpaths, hverify⟩ := paths_of_plain hplain
  obtain ⟨answer, hanswer⟩ := (hverify ⟨["/dev/sda1"]⟩ (some "Erase it.")).2
    ⟨"/dev/sdb", by rw [hdevices]; decide, by decide⟩
  refine ⟨hplain, hpaths.trans hdevices, answer, ?_⟩
  rw [hanswer, hdevices]
  rfl

end InstallAssistant.Device
