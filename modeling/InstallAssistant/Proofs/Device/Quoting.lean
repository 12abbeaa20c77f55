import InstallAssistant.Proofs.Device.Word

/-!
# InstallAssistant.Proofs.Device.Quoting

Device paths that a shell puts together from a word with quotes.

* A path that the quotes leave in one piece is read as it is; any other word is read
  as it is written, quotes and all (`exists_mentioned_of_spells`).
* So a command that passes the guard opens only allowed devices through such words
  (`allows_of_spells`), as long as a word adds nothing to a path behind the quote that
  closes it, and as long as no device is known under the word as it is written.
* Without either condition this fails: behind `"/dev/sda"` the guard no longer looks
  (`smuggles_behind_quotes`).
-/

namespace InstallAssistant.Device

/-! ## quote removal -/

/-- What a shell makes of a word: quotes go, in pairs, and what stands between the quotes of a pair
stays as it is. -/
inductive Spells : (word text : List Char) → Prop
  | nil : Spells [] []
  | bare {c : Char} {word text : List Char} (hc : isQuote c = false) (h : Spells word text) :
      Spells (c :: word) (c :: text)
  | quoted {q : Char} {part word text : List Char} (hq : isQuote q = true) (hpart : q ∉ part)
      (h : Spells word text) : Spells (q :: (part ++ q :: word)) (part ++ text)

/-- Two texts that are the same up to the first `q` are cut there into the same parts. -/
theorem append_cons_inj {q : Char} {x y s t : List Char} (hx : q ∉ x) (hy : q ∉ y)
    (h : x ++ q :: s = y ++ q :: t) : x = y ∧ s = t := by
  have hxy : x <+: y := isPrefix_of_isPrefix_append_cons hx ⟨q :: s, h⟩
  have hyx : y <+: x := isPrefix_of_isPrefix_append_cons hy ⟨q :: t, h.symm⟩
  obtain rfl := hxy.eq_of_length_le hyx.length_le
  exact ⟨rfl, (List.cons.inj (List.append_cancel_left h)).2⟩

namespace Spells

theorem of_cons {c : Char} {word text : List Char} (hc : isQuote c = false)
    (h : Spells (c :: word) text) : ∃ rest, text = c :: rest ∧ Spells word rest := by
  cases h with
  | bare _ h => exact ⟨_, rfl, h⟩
  | quoted hq =>
      rw [hc] at hq
      contradiction

theorem of_quote {q : Char} {word text : List Char} (hq : isQuote q = true)
    (h : Spells (q :: word) text) :
    ∃ part behind rest, word = part ++ q :: behind ∧ q ∉ part ∧ text = part ++ rest ∧
      Spells behind rest := by
  cases h with
  | bare hc =>
      rw [hc] at hq
      contradiction
  | quoted _ hpart h => exact ⟨_, _, _, rfl, hpart, rfl, h⟩

/-- A beginning without quotes is kept. -/
theorem of_append {part word text : List Char} (hpart : ∀ c ∈ part, isQuote c = false)
    (h : Spells (part ++ word) text) : ∃ rest, text = part ++ rest ∧ Spells word rest := by
  induction part generalizing text with
  | nil => exact ⟨text, rfl, h⟩
  | cons c part ih =>
      obtain ⟨_, rfl, htail⟩ := of_cons (hpart c List.mem_cons_self) h
      obtain ⟨rest, rfl, hrest⟩ := ih (fun d hd => hpart d (List.mem_cons_of_mem c hd)) htail
      exact ⟨rest, rfl, hrest⟩

/-- A beginning without quotes may be put before a word. -/
theorem append {part word text : List Char} (hpart : ∀ c ∈ part, isQuote c = false)
    (h : Spells word text) : Spells (part ++ word) (part ++ text) := by
  induction part with
  | nil => exact h
  | cons c part ih =>
      exact bare (hpart c List.mem_cons_self) (ih fun d hd => hpart d (List.mem_cons_of_mem c hd))

theorem self {word : List Char} (hword : ∀ c ∈ word, isQuote c = false) : Spells word word := by
  have h := append hword nil
  rwa [List.append_nil] at h

/-- A word spells one text. -/
theorem unique {word s t : List Char} (hs : Spells word s) (ht : Spells word t) : s = t := by
  induction hs generalizing t with
  | nil =>
      cases ht
      rfl
  | bare hc _ ih =>
      obtain ⟨rest, rfl, h⟩ := of_cons hc ht
      rw [ih h]
  | quoted hq hpart _ ih =>
      obtain ⟨part, behind, rest, heq, hpart', rfl, h⟩ := of_quote hq ht
      obtain ⟨rfl, rfl⟩ := append_cons_inj hpart hpart' heq
      rw [ih h]

/-- Quote removal drops quotes only. -/
theorem mem_or_isQuote {word text : List Char} (h : Spells word text) {c : Char} (hc : c ∈ word) :
    c ∈ text ∨ isQuote c = true := by
  induction h with
  | nil => cases hc
  | bare _ _ ih =>
      rcases List.mem_cons.mp hc with rfl | hc
      · exact .inl List.mem_cons_self
      · exact (ih hc).imp_left (List.mem_cons_of_mem _)
  | quoted hq _ _ ih =>
      rcases List.mem_cons.mp hc with rfl | hc
      · exact .inr hq
      rcases List.mem_append.mp hc with hc | hc
      · exact .inl (List.mem_append_left _ hc)
      rcases List.mem_cons.mp hc with rfl | hc
      · exact .inr hq
      · exact (ih hc).imp_left (List.mem_append_right _)

end Spells

/-! ## what is read of a word with quotes -/

theorem properties_of_isQuote {q : Char} (hq : isQuote q = true) :
    isPathChar q = false ∧ isNameChar q = false ∧ isExpansion q = true ∧ endsWord q = false ∧
      Plain q := by
  have hall : ∀ q ∈ ['\x22', '\x27'],
      isPathChar q = false ∧ isNameChar q = false ∧ isExpansion q = true ∧ endsWord q = false ∧
        Plain q := List.all_iff_forall_prop.mp (by decide)
  refine hall q ?_
  simpa [isQuote] using hq

theorem isQuote_of_mem_root {c : Char} (hc : c ∈ root) : isQuote c = false := by
  have hall : root.all (fun c => !isQuote c) = true := by decide
  simpa using List.all_eq_true.mp hall c hc

theorem isQuote_of_mem_pseudoDevices {path : String} (hpath : path ∈ pseudoDevices) {c : Char}
    (hc : c ∈ path.toList) : isQuote c = false := by
  have hall : ∀ path ∈ pseudoDevices, path.toList.all (fun c => !isQuote c) = true := by decide
  simpa using List.all_eq_true.mp (hall path hpath) c hc

theorem isQuote_of_isDeviceChar {c : Char} (hc : isDeviceChar c = true) : isQuote c = false := by
  by_contra h
  have hquote := (properties_of_isQuote (by simpa using h)).1
  rw [(properties_of_isDeviceChar hc).1] at hquote
  contradiction

/-- A text of names and quotes: no separator is in it, and no end of a word. -/
theorem properties_of_name_or_quote {c : Char} (hc : isDeviceChar c = true ∨ isQuote c = true) :
    Plain c ∧ endsWord c = false := by
  rcases hc with hc | hc
  · refine ⟨(properties_of_isDeviceChar hc).2.2, ?_⟩
    by_contra h
    have hpath := (properties_of_endsWord (by simpa using h)).1
    rw [(properties_of_isDeviceChar hc).1] at hpath
    contradiction
  · exact ⟨(properties_of_isQuote hc).2.2.2.2, (properties_of_isQuote hc).2.2.2.1⟩

section

variable {name behind : List Char} {q : Char}

/-- A path that goes on with a quote, and does not stand in a pair of quotes, is read to the end of
a text of names and quotes. -/
theorem mem_filterMap_of_not_isQuoted (hname : ∀ c ∈ name, isDeviceChar c = true)
    (hq : isQuote q = true) (hbehind : ∀ c ∈ behind, isDeviceChar c = true ∨ isQuote c = true)
    {before : Option Char} (hbefore : ∀ c ∈ before, isNameChar c = false)
    (hquoted : (⟨before, root ++ name, q :: behind⟩ : Mention).isQuoted = false) :
    root ++ (name ++ q :: behind) ∈
      (mentionsFrom before (root ++ (name ++ q :: behind))).filterMap Mention.path? := by
  have hpath : ∀ c ∈ name, isPathChar c = true := fun c hc =>
    (properties_of_isDeviceChar (hname c hc)).1
  have hends : ∀ c ∈ root ++ (name ++ q :: behind), (!endsWord c) = true := by
    have hroot : ∀ c ∈ root, (!endsWord c) = true := List.all_eq_true.mp (by decide)
    have hword : ∀ c ∈ name ++ q :: behind, isDeviceChar c = true ∨ isQuote c = true :=
      List.forall_mem_append.mpr
        ⟨fun c hc => .inl (hname c hc), List.forall_mem_cons.mpr ⟨.inr hq, hbehind⟩⟩
    refine List.forall_mem_append.mpr ⟨hroot, fun c hc => ?_⟩
    rw [(properties_of_name_or_quote (hword c hc)).2, Bool.not_false]
  have hread :=
    mem_filterMap_of_expansion hpath (properties_of_isQuote hq).2.2.1 hbefore hquoted
  rwa [List.takeWhile_eq_self_iff.mpr hends] at hread

/-- A path in a pair of quotes is read up to the second one, whatever follows. -/
theorem mem_filterMap_of_isQuoted (hname : ∀ c ∈ name, isDeviceChar c = true)
    (hne : name ≠ []) (hq : isQuote q = true) (behind : List Char) :
    root ++ name ∈
      (mentionsFrom (some q) (root ++ (name ++ q :: behind))).filterMap Mention.path? := by
  have hrun : ∀ c ∈ name, isPathChar c = true := fun c hc =>
    (properties_of_isDeviceChar (hname c hc)).1
  have hbefore : ∀ c ∈ some q, isNameChar c = false := by
    rintro c ⟨⟩
    exact (properties_of_isQuote hq).2.1
  have hquoted : (⟨some q, root ++ name, q :: behind⟩ : Mention).isQuoted = true := by
    simp [Mention.isQuoted, hq, List.length_pos_iff.mpr hne]
  have hpath : isDevicePath (root ++ name) = true := isDevicePath_iff.mpr ⟨name, hne, hname, rfl⟩
  rw [mentionsFrom_root_append_run hrun (properties_of_isQuote hq).1, List.filterMap_cons,
    path?_of_isDevicePath hpath hbefore (.inr hquoted)]
  exact List.mem_cons_self

end

/-! ## words that spell device paths -/

section

variable {word name : List Char} (hname : ∀ c ∈ name, isDeviceChar c = true)
include hname

/-- A word that begins with a path is read as it is written. -/
theorem mem_mentioned_of_spells (hne : name ≠ []) (h : Spells word name) :
    root ++ word ∈ mentioned (root ++ word) ∧ (word = name ∨ ∃ c ∈ word, isQuote c = true) := by
  have hword : ∀ c ∈ word, isDeviceChar c = true ∨ isQuote c = true := fun c hc =>
    (h.mem_or_isQuote hc).imp_left (hname c)
  cases hfind : word.find? isQuote with
  | none =>
      have hquotes : ∀ c ∈ word, isQuote c = false := by simpa using hfind
      obtain rfl := (Spells.self hquotes).unique h
      rw [mentioned_of_isDevicePath (isDevicePath_iff.mpr ⟨word, hne, hname, rfl⟩)]
      exact ⟨List.mem_cons_self, .inl rfl⟩
  | some q =>
      obtain ⟨hq, front, behind, rfl, hfront⟩ := List.find?_eq_some_iff_append.mp hfind
      have hdevice : ∀ c ∈ front, isDeviceChar c = true := fun c hc =>
        (hword c (List.mem_append_left _ hc)).resolve_right (by simpa using hfront c hc)
      have hbehind : ∀ c ∈ behind, isDeviceChar c = true ∨ isQuote c = true := fun c hc =>
        hword c (List.mem_append_right _ (List.mem_cons_of_mem q hc))
      have hplain : ∀ c ∈ front ++ q :: behind, Plain c := fun c hc =>
        (properties_of_name_or_quote (hword c hc)).1
      refine ⟨?_, .inr ⟨q, List.mem_append_right _ List.mem_cons_self, hq⟩⟩
      rw [mentioned, collapse_root_append hplain]
      exact mem_filterMap_of_not_isQuoted hdevice hq hbehind (by simp) rfl

/-- Of a word that begins with a quote and a path, the path is read up to the next quote if a name
stands there, and otherwise as it is written. -/
theorem exists_mem_mentioned_of_quote {q : Char} (hq : isQuote q = true)
    (h : Spells (q :: (root ++ word)) (root ++ name)) :
    ∃ front behind rest, word = front ++ q :: behind ∧ name = front ++ rest ∧
      Spells behind rest ∧
      (front ≠ [] ∧ root ++ front ∈ mentioned (q :: (root ++ word)) ∨
        root ++ word ∈ mentioned (q :: (root ++ word))) := by
  obtain ⟨part, behind, rest, hpart, hqpart, htext, hrest⟩ := h.of_quote hq
  -- the quote that closes stands behind the directory
  have hroot : root <+: part := by
    refine isPrefix_of_isPrefix_append_cons ?_ ⟨word, hpart⟩
    intro hmem
    rw [isQuote_of_mem_root hmem] at hq
    contradiction
  obtain ⟨front, rfl⟩ := hroot
  rw [List.append_assoc] at hpart htext
  obtain rfl := List.append_cancel_left hpart
  obtain rfl := List.append_cancel_left htext
  have hfront : ∀ c ∈ front, isDeviceChar c = true := fun c hc =>
    hname c (List.mem_append_left _ hc)
  have hbehind : ∀ c ∈ behind, isDeviceChar c = true ∨ isQuote c = true := fun c hc =>
    (hrest.mem_or_isQuote hc).imp_left fun hc => hname c (List.mem_append_right _ hc)
  have hplain : ∀ c ∈ front ++ q :: behind, Plain c := by
    intro c hc
    rcases List.mem_append.mp hc with hc | hc
    · exact (properties_of_name_or_quote (.inl (hfront c hc))).1
    rcases List.mem_cons.mp hc with rfl | hc
    · exact (properties_of_name_or_quote (.inr hq)).1
    · exact (properties_of_name_or_quote (hbehind c hc)).1
  have hstart : mentioned (q :: (root ++ (front ++ q :: behind))) =
      (mentionsFrom (some q) (root ++ (front ++ q :: behind))).filterMap Mention.path? := by
    have hq' := (properties_of_isQuote hq).2.2.2.2
    rw [mentioned, collapse, collapseFrom_cons hq', collapse_root_append hplain,
      mentionsFrom_cons (not_root_isPrefix_cons hq'.1 _)]
  refine ⟨front, behind, rest, rfl, rfl, hrest, ?_⟩
  rw [hstart]
  by_cases hnil : front = []
  · subst hnil
    refine .inr (mem_filterMap_of_not_isQuoted hfront hq hbehind ?_ ?_)
    · rintro c ⟨⟩
      exact (properties_of_isQuote hq).2.1
    · simp [Mention.isQuoted]
  · exact .inl ⟨hnil, mem_filterMap_of_isQuoted hfront hnil hq behind⟩

end

/-- Behind a path in a pair of quotes, the word adds nothing to it. -/
def NothingBehindPair (word : List Char) : Prop :=
  ∀ q path behind, isQuote q = true → isDevicePath path = true →
    word = q :: (path ++ q :: behind) → Spells behind []

theorem isQuote_of_isDevicePath {path : List Char} (h : isDevicePath path = true) :
    ∀ c ∈ path, isQuote c = false := by
  obtain ⟨name, _, hname, rfl⟩ := isDevicePath_iff.mp h
  intro c hc
  rcases List.mem_append.mp hc with hc | hc
  · exact isQuote_of_mem_root hc
  · exact isQuote_of_isDeviceChar (hname c hc)

/-- Nothing stands behind a pair of quotes that is the whole word. -/
theorem nothingBehindPair_quoted {q : Char} {path : List Char}
    (hpath : ∀ c ∈ path, isQuote c = false) : NothingBehindPair (q :: (path ++ [q])) := by
  intro r path' behind hr hpath' heq
  obtain ⟨rfl, heq⟩ := List.cons.inj heq
  have hnone : ∀ p : List Char, (∀ c ∈ p, isQuote c = false) → q ∉ p := by
    intro p hp hmem
    rw [hp q hmem] at hr
    contradiction
  obtain ⟨_, rfl⟩ :=
    append_cons_inj (hnone path hpath) (hnone path' (isQuote_of_isDevicePath hpath')) heq
  exact Spells.nil

/-- A word that spells a device path is read as that path, or as it is written, with a quote. -/
theorem exists_mentioned_of_spells {word path : List Char} (hpath : isDevicePath path = true)
    (h : Spells word path) (hwritten : root <+: word ∨ ∃ q, isQuote q = true ∧ q :: root <+: word)
    (hend : NothingBehindPair word) :
    path ∈ mentioned word ∨
      ∃ p ∈ mentioned word, p <:+ word ∧ ∃ c ∈ p, isQuote c = true := by
  obtain ⟨name, hne, hname, rfl⟩ := isDevicePath_iff.mp hpath
  rcases hwritten with ⟨word, rfl⟩ | ⟨q, hq, word, rfl⟩
  · obtain ⟨rest, heq, hrest⟩ := h.of_append fun _ => isQuote_of_mem_root
    obtain rfl := List.append_cancel_left heq
    obtain ⟨hmem, rfl | ⟨c, hc, hquote⟩⟩ := mem_mentioned_of_spells hname hne hrest
    · exact .inl hmem
    · exact .inr ⟨_, hmem, List.suffix_rfl, c, List.mem_append_right _ hc, hquote⟩
  · obtain ⟨front, behind, rest, rfl, rfl, hrest, ⟨hfront, hmem⟩ | hmem⟩ :=
      exists_mem_mentioned_of_quote hname hq h
    · have hfrontPath : isDevicePath (root ++ front) = true :=
        isDevicePath_iff.mpr ⟨front, hfront, fun c hc => hname c (List.mem_append_left _ hc), rfl⟩
      have hnothing : Spells behind [] := by
        refine hend q (root ++ front) behind hq hfrontPath ?_
        rw [List.cons_append, List.append_assoc]
      obtain rfl := hrest.unique hnothing
      rw [List.append_nil]
      exact .inl hmem
    · exact .inr ⟨_, hmem, List.suffix_cons q _, q, by simp, hq⟩

/-! ## what the guard lets pass -/

/-- **Quotes smuggle no device past the guard**: where a word spells a device path in a command that
passes, the device is known or a pseudo device.  The directory has to be written in one piece at the
start of the word.  The word must add nothing to a path behind the quote that closes it, and must
not be known as it is written, quotes and all. -/
theorem allows_of_spells {known : Known} {a : Action} {front word rest path : List Char}
    (hcommand : a.content.toList = front ++ word ++ rest)
    (hfront : ∀ c ∈ front.getLast?, Text.isAsciiSpace c = true)
    (hrest : ∀ c ∈ rest.head?, Text.isAsciiSpace c = true)
    (hpath : isDevicePath path = true) (hspells : Spells word path)
    (hwritten : root <+: word ∨ ∃ q, isQuote q = true ∧ q :: root <+: word)
    (hend : NothingBehindPair word)
    (hknown : ∀ p : String, p.toList <:+ word → (∃ c ∈ p.toList, isQuote c = true) →
      known.contains p = false)
    (hverify : (verify known a).action.kind = .command) :
    known.contains (String.ofList path) = true ∨ String.ofList path ∈ pseudoDevices := by
  have hends : ∀ c, Text.isAsciiSpace c = true → endsWord c = true := by
    intro c hc
    simp [endsWord, hc]
  have hallowed : ∀ p ∈ mentioned word, known.allows (String.ofList p) = true := by
    intro p hp
    have hmem := mem_mentioned_of_border (fun c hc => hends c (hfront c hc))
      (fun c hc => hends c (hrest c hc)) hp
    refine (verify_command hverify).2 _ ?_
    rw [paths_eq, List.mem_eraseDups, hcommand]
    exact List.mem_map_of_mem hmem
  rcases exists_mentioned_of_spells hpath hspells hwritten hend with hp | ⟨p, hp, hin, c, hc, hq⟩
  · exact (Known.allows_iff.mp (hallowed path hp)).symm
  · -- what is read has a quote in it, so it cannot have been allowed
    exfalso
    rcases Known.allows_iff.mp (hallowed p hp) with hpseudo | hcontains
    · rw [isQuote_of_mem_pseudoDevices hpseudo (by rwa [String.toList_ofList])] at hq
      cases hq
    · rw [hknown _ (by rwa [String.toList_ofList]) ⟨c, by rwa [String.toList_ofList], hq⟩]
        at hcontains
      cases hcontains

/-- A quoted path that may be mounted. -/
theorem contains_of_mount :
    (verify ⟨["/dev/sda1"]⟩ ⟨.command, "mount \"/dev/sda1\" /mnt", none⟩).action.kind = .command ∧
      (Known.contains ⟨["/dev/sda1"]⟩ (String.ofList "/dev/sda1".toList) = true ∨
        String.ofList "/dev/sda1".toList ∈ pseudoDevices) := by
  have hverify : (verify ⟨["/dev/sda1"]⟩
      ⟨.command, "mount \"/dev/sda1\" /mnt", none⟩).action.kind = .command := by decide +kernel
  have hpath : isDevicePath "/dev/sda1".toList = true := by decide
  have hquotes := isQuote_of_isDevicePath hpath
  have hspells : Spells ('\x22' :: ("/dev/sda1".toList ++ ['\x22'])) "/dev/sda1".toList :=
    Spells.quoted rfl (by decide) Spells.nil
  have hknown : ∀ p : String, p.toList <:+ '\x22' :: ("/dev/sda1".toList ++ ['\x22']) →
      (∃ c ∈ p.toList, isQuote c = true) → Known.contains ⟨["/dev/sda1"]⟩ p = false := by
    rintro p _ ⟨c, hc, hq⟩
    have hne : p ≠ "/dev/sda1" := by
      rintro rfl
      rw [hquotes c hc] at hq
      cases hq
    simp [Known.contains, hne]
  have hcommand : (Action.mk .command "mount \"/dev/sda1\" /mnt" none).content.toList =
      "mount ".toList ++ '\x22' :: ("/dev/sda1".toList ++ ['\x22']) ++ " /mnt".toList := by
    decide
  have hspace : ∀ c ∈ some ' ', Text.isAsciiSpace c = true := by
    rintro _ ⟨⟩
    rfl
  exact ⟨hverify, allows_of_spells hcommand hspace hspace hpath hspells
    (.inr ⟨'\x22', rfl, by decide⟩) (nothingBehindPair_quoted hquotes) hknown hverify⟩

/-- A command that passes, while its last word opens a device that is neither known nor a pseudo
device. -/
def Smuggles (known : Known) (front word path : String) : Prop :=
  (verify known ⟨.command, front ++ word, none⟩).action.kind = .command ∧
    Spells word.toList path.toList ∧ isDevicePath path.toList = true ∧
    ¬ (known.contains path = true ∨ path ∈ pseudoDevices)

/-- Both conditions are needed.  Behind the quote that closes a path the guard does not look, so a
partition that is not there can be opened; and where a device is known by a path with quotes, that
path passes for the one that the shell opens. -/
theorem smuggles_behind_quotes :
    Smuggles ⟨["/dev/sda"]⟩ "wipefs -a " "\"/dev/sda\"1" "/dev/sda1" ∧
      Smuggles ⟨["/dev/\"sdz\""]⟩ "wipefs " "/dev/\"sdz\"" "/dev/sdz" := by
  have hpartition : Spells ('\x22' :: ("/dev/sda".toList ++ '\x22' :: ['1']))
      ("/dev/sda".toList ++ ['1']) :=
    Spells.quoted rfl (by decide) (Spells.bare rfl Spells.nil)
  have hquoted : Spells (root ++ '\x22' :: ("sdz".toList ++ ['\x22'])) (root ++ "sdz".toList) :=
    Spells.append (fun _ => isQuote_of_mem_root) (Spells.quoted rfl (by decide) Spells.nil)
  exact ⟨⟨by decide +kernel, hpartition, by decide, by decide⟩,
    ⟨by decide +kernel, hquoted, by decide, by decide⟩⟩

end InstallAssistant.Device
