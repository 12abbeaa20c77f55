import InstallAssistant.Proofs.Chat.Marker

/-!
# InstallAssistant.Proofs.Chat.Placement

Where the tools belong, and where they go.  They belong behind the content of the
first system turn, wherever that stands, and only without any system turn into one
of their own (`withTools`).  Rendering looks at the first turn alone:

* the section about the tools adds no marker and hides none (`marker?_append_section`),
  so a marker is found in the same turn with the tools and without them
  (`markedTurn?_withTools`);
* the tools go where they belong unless a system turn stands late, behind a turn of
  another role (`placeTools_eq_withTools_iff`).

`render_withTools_iff` is both for whole conversations.
-/

namespace InstallAssistant.Chat

/-- The fault as it is told when `k` more turns stand in front. -/
def Fault.behind (k : Nat) : Fault → Fault
  | .reservedMarker turn role marker => .reservedMarker (turn + k) role marker
  | fault => fault

namespace ChatML

open Text

/-! ## where the tools belong -/

/-- The section about the tools without the line breaks that it begins with. -/
def bareSection (tools : List Json) : String :=
  String.ofList ((toolsSection tools).toList.dropWhile (· == '\n'))

/-- The turns with the tools where they belong: behind the content of the first system turn, or,
when there is none at all, in a system turn of their own that comes first. -/
def withTools (tools : List Json) (turns : List Turn) : List Turn :=
  match turns.findIdx? fun t => t.role == .system with
  | some i => turns.modify i fun t => { t with content := t.content ++ toolsSection tools }
  | none => ⟨.system, bareSection tools⟩ :: turns

/-- A system turn is there, and the first turn is another one. -/
def SystemLate (turns : List Turn) : Prop :=
  (∃ t ∈ turns, t.role = .system) ∧ turns.head?.map Turn.role ≠ some .system

section

variable (tools : List Json) {turns : List Turn}

theorem withTools_of_system {t : Turn} (h : t.role = .system) (rest : List Turn) :
    withTools tools (t :: rest) = { t with content := t.content ++ toolsSection tools } :: rest := by
  rw [withTools, List.findIdx?_cons, if_pos (by simpa using h)]
  rfl

theorem withTools_of_no_system (h : ∀ t ∈ turns, t.role ≠ .system) :
    withTools tools turns = ⟨.system, bareSection tools⟩ :: turns := by
  have hnone : (turns.findIdx? fun t => t.role == .system) = none := by
    simpa [List.findIdx?_eq_none_iff] using h
  rw [withTools, hnone]

theorem withTools_of_exists (h : ∃ t ∈ turns, t.role = .system) :
    ∃ i, withTools tools turns =
      turns.modify i fun t => { t with content := t.content ++ toolsSection tools } := by
  cases hfind : turns.findIdx? fun t => t.role == .system with
  | some i => exact ⟨i, by rw [withTools, hfind]⟩
  | none =>
      obtain ⟨t, ht, hrole⟩ := h
      have hother := List.findIdx?_eq_none_iff.mp hfind t ht
      simp [hrole] at hother

/-- Only line breaks are trimmed off the section. -/
theorem trimStart_toolsSection :
    String.ofList (trimStart (toolsSection tools).toList) = bareSection tools := by
  obtain ⟨s, hs⟩ : ∃ s, (toolsSection tools).toList = '\n' :: '\n' :: '#' :: s := by
    unfold toolsSection
    simp only [String.toList_append]
    exact ⟨_, rfl⟩
  rw [bareSection, hs]
  rfl

end

/-! ## markers with the tools and without them -/

section

variable {tools : List Json} {turns : List Turn}

/-- Behind a content, the section adds no marker to it and hides none of it. -/
theorem marker?_append_section (htools : ∀ tool ∈ tools, marker? tool.compact = none)
    (content : String) : marker? (content ++ toolsSection tools) = marker? content := by
  have hsame : ∀ marker ∈ [turnStart, turnEnd],
      contains marker.toList (content ++ toolsSection tools).toList =
        contains marker.toList content.toList := by
    intro marker hmarker
    have hm : marker.toList ∈ markers := List.mem_map_of_mem (f := String.toList) hmarker
    obtain ⟨hne, _, hbreak, _⟩ := properties_of_mem_markers hm
    obtain ⟨s, hs⟩ := exists_toolsSection_eq tools
    have hnone : occurrences marker.toList ('\n' :: s) = 0 :=
      hs ▸ unmarked_toolsSection htools marker.toList hm
    have hapart := apart_of_head (fun hin => hbreak (List.mem_of_mem_tail hin)) content.toList s
    have hcount := occurrences_append hne hapart
    rw [hnone, Nat.add_zero] at hcount
    rw [Bool.eq_iff_iff, ← not_iff_not, Bool.not_eq_true, Bool.not_eq_true, contains_eq_false_iff,
      contains_eq_false_iff, ← occurrences_eq_zero_iff hne, ← occurrences_eq_zero_iff hne,
      String.toList_append, hs, hcount]
  simp only [marker?, List.find?_cons, List.find?_nil, hsame turnStart (by simp),
    hsame turnEnd (by simp)]

/-- In a turn of its own, the section holds no marker. -/
theorem marker?_bareSection (htools : ∀ tool ∈ tools, marker? tool.compact = none) :
    marker? (bareSection tools) = none := by
  have hsuffix : (bareSection tools).toList <:+ (toolsSection tools).toList := by
    rw [bareSection, String.toList_ofList]
    exact List.dropWhile_suffix _
  rw [marker?_eq_none_iff]
  intro marker hmarker hin
  have hm : marker.toList ∈ markers := List.mem_map_of_mem (f := String.toList) hmarker
  have hnone := unmarked_toolsSection htools marker.toList hm
  rw [occurrences_eq_zero_iff (properties_of_mem_markers hm).1] at hnone
  exact hnone (hin.trans hsuffix.isInfix)

theorem markedTurn?_add (i k : Nat) (turns : List Turn) :
    markedTurn? (i + k) turns = (markedTurn? i turns).map (Fault.behind k) := by
  induction turns generalizing i with
  | nil => rfl
  | cons t ts ih =>
      rw [markedTurn?, markedTurn?]
      cases marker? t.content with
      | some marker => rfl
      | none => exact (congrArg (markedTurn? · ts) (Nat.add_right_comm i k 1)).trans (ih (i + 1))

/-- A turn may be changed as long as its markers stay. -/
theorem markedTurn?_modify {f : Turn → Turn} (hrole : ∀ t, (f t).role = t.role)
    (hcontent : ∀ t, marker? (f t).content = marker? t.content) (i j : Nat) (turns : List Turn) :
    markedTurn? i (turns.modify j f) = markedTurn? i turns := by
  induction turns generalizing i j with
  | nil => simp
  | cons t ts ih =>
      cases j with
      | zero => rw [List.modify_zero_cons, markedTurn?, markedTurn?, hrole, hcontent]
      | succ j => rw [List.modify_succ_cons, markedTurn?, markedTurn?, ih]

/-- **The first marker stands in the same turn** with the tools and without them. -/
theorem markedTurn?_withTools (htools : ∀ tool ∈ tools, marker? tool.compact = none)
    (turns : List Turn) :
    markedTurn? 0 (withTools tools turns) = (markedTurn? 0 turns).map
      (Fault.behind ((withTools tools turns).length - turns.length)) := by
  by_cases hsystem : ∃ t ∈ turns, t.role = .system
  · obtain ⟨i, hi⟩ := withTools_of_exists tools hsystem
    have hsame := markedTurn?_modify
      (f := fun t => { t with content := t.content ++ toolsSection tools }) (fun _ => rfl)
      (fun t => marker?_append_section htools t.content) 0 i turns
    rw [hi, hsame, List.length_modify, Nat.sub_self, ← markedTurn?_add]
  · push Not at hsystem
    rw [withTools_of_no_system tools hsystem, markedTurn?, marker?_bareSection htools,
      List.length_cons, Nat.add_sub_cancel_left, ← markedTurn?_add]

end

/-! ## where the tools go -/

section

variable {tools : List Json} {turns : List Turn}

/-- **The tools go where they belong** unless a system turn is late. -/
theorem placeTools_eq_withTools_iff (h : tools ≠ []) (turns : List Turn) :
    placeTools tools turns = withTools tools turns ↔ ¬ SystemLate turns := by
  rcases system_or_other turns with ⟨content, rest, rfl⟩ | hother
  · rw [placeTools_system h, withTools_of_system tools rfl]
    simp [SystemLate]
  · rw [placeTools_other h hother, trimStart_toolsSection]
    by_cases hsystem : ∃ t ∈ turns, t.role = .system
    · -- the late turn takes the tools without a turn in front
      obtain ⟨i, hi⟩ := withTools_of_exists tools hsystem
      refine iff_of_false (fun heq => ?_) (not_not.mpr ⟨hsystem, hother⟩)
      have hlength := congrArg List.length heq
      rw [hi, List.length_modify, List.length_cons] at hlength
      omega
    · refine iff_of_true ?_ fun hlate => hsystem hlate.1
      push Not at hsystem
      rw [withTools_of_no_system tools hsystem]

theorem withTools_ne_nil (hne : turns ≠ []) : withTools tools turns ≠ [] := by
  by_cases hsystem : ∃ t ∈ turns, t.role = .system
  · obtain ⟨i, hi⟩ := withTools_of_exists tools hsystem
    rwa [hi, ne_eq, List.modify_eq_nil_iff]
  · push Not at hsystem
    rw [withTools_of_no_system tools hsystem]
    exact List.cons_ne_nil _ _

/-! ## rendering -/

theorem render_of_marked (hne : turns ≠ []) {fault : Fault} (h : markedTurn? 0 turns = some fault)
    (tools : List Json) (openReply : Bool) : render turns tools openReply = .error fault := by
  unfold render
  rw [if_neg (by simpa using hne), h]

theorem render_of_unmarked (hne : turns ≠ []) (h : markedTurn? 0 turns = none)
    (tools : List Json) (openReply : Bool) :
    render turns tools openReply =
      .ok (String.join ((placeTools tools turns).map renderTurn) ++
        if openReply then replyHead else "") := by
  unfold render
  rw [if_neg (by simpa using hne), h]

/-- Without markers, two lists of turns are rendered alike only if they are the same, whether or not
the tools are in them yet. -/
theorem render_eq_render_iff {placed : List Turn} (hne : turns ≠ []) (hplaced : placed ≠ [])
    (hturns : markedTurn? 0 turns = none) (hnone : markedTurn? 0 placed = none)
    (htools : ∀ tool ∈ tools, marker? tool.compact = none) (openReply : Bool) :
    render placed [] openReply = render turns tools openReply ↔ placeTools tools turns = placed := by
  have hunmarked : ∀ t ∈ placed, Unmarked t.content.toList :=
    fun t ht => unmarked_of_marker?_eq_none (markedTurn?_eq_none_iff.mp hnone t ht)
  have hplain := unmarked_placeTools htools (markedTurn?_eq_none_iff.mp hturns)
  rw [render_of_unmarked hne hturns, render_of_unmarked hplaced hnone, placeTools_nil]
  constructor
  · intro htext
    have hlist := congrArg String.toList (Except.ok.inj htext)
    rw [toList_rendered, toList_rendered] at hlist
    exact (eq_of_rendered_eq hunmarked hplain hlist).1.symm
  · intro hsame
    rw [hsame]

/-- **Tools are rendered where they belong** exactly if no system turn is late, or a marker forbids
the text anyway.  A conversation with tools is then rendered as the turns that have them where they
belong, or refused for the same marker in the same turn, whose number is that among the turns that
were given.  A late system turn is passed over for a new one in front. -/
theorem render_withTools_iff (h : tools ≠ [])
    (htools : ∀ tool ∈ tools, marker? tool.compact = none) (hne : turns ≠ []) (openReply : Bool) :
    render (withTools tools turns) [] openReply =
        (render turns tools openReply).mapError
          (Fault.behind ((withTools tools turns).length - turns.length)) ↔
      (SystemLate turns → ∃ t ∈ turns, marker? t.content ≠ none) := by
  have hmarks := markedTurn?_withTools htools turns
  cases hmarked : markedTurn? 0 turns with
  | some fault =>
      rw [hmarked] at hmarks
      rw [render_of_marked hne hmarked, render_of_marked (withTools_ne_nil hne) hmarks]
      refine iff_of_true rfl fun _ => ?_
      by_contra hall
      push Not at hall
      rw [markedTurn?_eq_none_iff.mpr hall] at hmarked
      contradiction
  | none =>
      rw [hmarked] at hmarks
      have hplain := markedTurn?_eq_none_iff.mp hmarked
      have hno : ¬ ∃ t ∈ turns, marker? t.content ≠ none := fun ⟨t, ht, hm⟩ => hm (hplain t ht)
      have hsame : (render turns tools openReply).mapError
          (Fault.behind ((withTools tools turns).length - turns.length)) =
          render turns tools openReply := by
        rw [render_of_unmarked hne hmarked]
        rfl
      rw [hsame, render_eq_render_iff hne (withTools_ne_nil hne) hmarked hmarks htools,
        placeTools_eq_withTools_iff h, imp_iff_not hno]

end

/-- Of two system turns the first one takes the tools, and no turn is added. -/
theorem render_withTools_system_twice :
    (∀ tool ∈ [Json.object [("name", .string "lsblk")]], marker? tool.compact = none) ∧
      ¬ SystemLate [⟨.system, "a"⟩, ⟨.user, "b"⟩, ⟨.system, "c"⟩] ∧
      render [⟨.system, "a" ++ toolsSection [.object [("name", .string "lsblk")]]⟩, ⟨.user, "b"⟩,
          ⟨.system, "c"⟩] [] true =
        (render [⟨.system, "a"⟩, ⟨.user, "b"⟩, ⟨.system, "c"⟩]
          [.object [("name", .string "lsblk")]] true).mapError (Fault.behind 0) := by
  have hlead : ¬ SystemLate [⟨.system, "a"⟩, ⟨.user, "b"⟩, ⟨.system, "c"⟩] :=
    fun hlate => hlate.2 rfl
  have hiff := @render_withTools_iff [.object [("name", .string "lsblk")]]
    [⟨.system, "a"⟩, ⟨.user, "b"⟩, ⟨.system, "c"⟩] (List.cons_ne_nil _ _) marker?_lsblk
    (List.cons_ne_nil _ _) true
  rw [withTools_of_system _ rfl] at hiff
  exact ⟨marker?_lsblk, hlead, hiff.mpr fun hlate => absurd hlate hlead⟩

/-- A system turn behind that of a user is passed over: the tools stand in a new turn in front. -/
theorem render_late_system_ne :
    render [⟨.user, "b"⟩, ⟨.system, "a"⟩] [.object [("name", .string "lsblk")]] true ≠
      render (withTools [.object [("name", .string "lsblk")]] [⟨.user, "b"⟩, ⟨.system, "a"⟩])
        [] true := by
  have hlate : SystemLate [⟨.user, "b"⟩, ⟨.system, "a"⟩] := ⟨⟨⟨.system, "a"⟩, by simp, rfl⟩, nofun⟩
  have hmarked : markedTurn? 0 [⟨.user, "b"⟩, ⟨.system, "a"⟩] = none := by decide
  have hmarks := markedTurn?_withTools marker?_lsblk [⟨.user, "b"⟩, ⟨.system, "a"⟩]
  rw [hmarked] at hmarks
  intro heq
  rw [eq_comm, render_eq_render_iff (List.cons_ne_nil _ _) (withTools_ne_nil (List.cons_ne_nil _ _))
    hmarked hmarks marker?_lsblk, placeTools_eq_withTools_iff (List.cons_ne_nil _ _)] at heq
  exact heq hlate

end ChatML

end InstallAssistant.Chat
