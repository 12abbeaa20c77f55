import InstallAssistant.Proofs.Chat.Template
import InstallAssistant.Proofs.Text.Occurrence

/-!
# InstallAssistant.Proofs.Chat.Marker

Markers in rendered conversations.  A marker is written where a turn begins or
ends, and nowhere else:

* no content that may be rendered holds a marker, nor does the section about the
  tools (`occurrences_toolsSection`), and none is put together at a border, so each
  rendered turn has each marker once (`occurrences_rendered`);
* so the turns are read back from their text (`eq_of_rendered_eq`), and the tools
  are put into them in one way only (`placeTools_injective`).

`render_injective` is both for whole conversations: no content can forge a turn.
-/

namespace InstallAssistant.Chat.ChatML

open Text

/-! ## markers -/

def markers : List (List Char) := [turnStart.toList, turnEnd.toList]

/-- A text that holds no marker. -/
def Unmarked (s : List Char) : Prop := ∀ m ∈ markers, occurrences m s = 0

theorem properties_of_mem_markers {m : List Char} (hm : m ∈ markers) :
    m ≠ [] ∧ '|' ∈ m ∧ '\n' ∉ m ∧ '<' ∉ m.tail := by
  have hall : ∀ m ∈ markers, m ≠ [] ∧ '|' ∈ m ∧ '\n' ∉ m ∧ '<' ∉ m.tail := by decide
  exact hall m hm

theorem unmarked_of_marker?_eq_none {content : String} (h : marker? content = none) :
    Unmarked content.toList := by
  intro m hm
  have hfree := marker?_eq_none_iff.mp h
  rw [occurrences_eq_zero_iff (properties_of_mem_markers hm).1]
  simp only [markers, List.mem_cons, List.not_mem_nil, or_false] at hm
  obtain rfl | rfl := hm
  · exact hfree turnStart (by simp)
  · exact hfree turnEnd (by simp)

theorem unmarked_of_notMem {s : List Char} (h : '|' ∉ s) : Unmarked s :=
  fun _ hm => occurrences_of_notMem (properties_of_mem_markers hm).2.1 h

/-- Texts are put together at a line break without making a marker. -/
theorem Unmarked.append_break {x y : List Char} (hx : Unmarked x) (hy : Unmarked y)
    (h : y.head? = some '\n') : Unmarked (x ++ y) := by
  obtain ⟨y, rfl⟩ := List.head?_eq_some_iff.mp h
  intro m hm
  obtain ⟨hne, _, hbreak, _⟩ := properties_of_mem_markers hm
  have hapart := apart_of_head (fun hin => hbreak (List.mem_of_mem_tail hin)) x y
  rw [occurrences_append hne hapart, hx m hm, hy m hm]

theorem Unmarked.cons_break {y : List Char} (hy : Unmarked y) : Unmarked ('\n' :: y) := by
  intro m hm
  obtain ⟨hne, hbar, hbreak, _⟩ := properties_of_mem_markers hm
  have hcons : occurrences m ([] ++ ['\n'] ++ y) = occurrences m ['\n'] + occurrences m y :=
    occurrences_append hne (apart_of_last hbreak [] y)
  have hnone : occurrences m ['\n'] = 0 := occurrences_of_notMem hbar (by decide)
  rw [hnone, hy m hm] at hcons
  exact hcons

/-! ## the section about the tools -/

/-- Tools on lines of their own behind a text. -/
theorem unmarked_append_tools {tools : List Json}
    (htools : ∀ tool ∈ tools, marker? tool.compact = none) {x : List Char} (hx : Unmarked x) :
    Unmarked (x ++ (String.join (tools.map fun tool => "\n" ++ tool.compact)).toList) := by
  induction tools generalizing x with
  | nil => simpa using hx
  | cons tool tools ih =>
      have hline : ("\n" ++ tool.compact).toList = '\n' :: tool.compact.toList := by simp
      have htool := unmarked_of_marker?_eq_none (htools tool List.mem_cons_self)
      have hmore := hx.append_break htool.cons_break rfl
      have hrest := ih (fun t ht => htools t (List.mem_cons_of_mem tool ht)) hmore
      rw [List.append_assoc] at hrest
      rwa [List.map_cons, String.join_cons, String.toList_append, hline]

theorem exists_toolsSection_eq (tools : List Json) :
    ∃ s, (toolsSection tools).toList = '\n' :: s := by
  unfold toolsSection
  simp only [String.toList_append]
  exact ⟨_, rfl⟩

/-- **The section about the tools** holds no marker if the tools hold none. -/
theorem unmarked_toolsSection {tools : List Json}
    (htools : ∀ tool ∈ tools, marker? tool.compact = none) :
    Unmarked (toolsSection tools).toList := by
  unfold toolsSection
  simp only [String.toList_append]
  -- the opening, the tools, and the closing, which begins with a line break
  rw [List.append_assoc, List.append_assoc]
  refine (unmarked_append_tools htools (unmarked_of_notMem ?_)).append_break
    (unmarked_of_notMem ?_) rfl
  · decide +kernel
  · decide +kernel

/-! ## turns -/

/-- What stands before the content of a turn. -/
def turnHead (role : Role) : List Char := turnStart.toList ++ role.name.toList ++ ['\n']

/-- What stands behind the content of a turn. -/
def turnTail : List Char := turnEnd.toList ++ ['\n']

/-- What stands behind all turns. -/
def replyOpening (openReply : Bool) : List Char := if openReply then turnHead .assistant else []

/-- The text of turns that is asked to go on, or not. -/
def rendered (turns : List Turn) (openReply : Bool) : List Char :=
  match turns with
  | [] => replyOpening openReply
  | t :: ts => turnHead t.role ++ (t.content.toList ++ (turnTail ++ rendered ts openReply))

theorem toList_rendered (turns : List Turn) (openReply : Bool) :
    (String.join (turns.map renderTurn) ++ if openReply then replyHead else "").toList =
      rendered turns openReply := by
  induction turns with
  | nil =>
      cases openReply with
      | false => rfl
      | true => simp [rendered, replyOpening, replyHead, turnHead]
  | cons t ts ih =>
      rw [String.toList_append] at ih
      rw [List.map_cons, String.join_cons, String.toList_append, String.toList_append,
        List.append_assoc, ih]
      simp [rendered, renderTurn, turnHead, turnTail]

/-! ### how often markers are written -/

/-- **A turn has each marker once**: one begins it and one ends it. -/
theorem occurrences_turn {m : List Char} (hm : m ∈ markers) (role : Role) {content : List Char}
    (hcontent : Unmarked content) (s : List Char) :
    occurrences m (turnHead role ++ (content ++ (turnTail ++ s))) = occurrences m s + 1 := by
  obtain ⟨hne, _, hbreak, hbracket⟩ := properties_of_mem_markers hm
  have hframe : occurrences m (turnHead role) + occurrences m turnTail = 1 := by
    have hall : ∀ m ∈ markers, occurrences m (turnHead role) + occurrences m turnTail = 1 := by
      cases role <;> decide
    exact hall m hm
  have hhead : occurrences m (turnHead role ++ (content ++ (turnTail ++ s))) =
      occurrences m (turnHead role) + occurrences m (content ++ (turnTail ++ s)) :=
    occurrences_append hne (apart_of_last hbreak _ _)
  have hborder : occurrences m (content ++ (turnTail ++ s)) =
      occurrences m content + occurrences m (turnTail ++ s) :=
    occurrences_append hne (apart_of_head hbracket _ _)
  have htail : occurrences m (turnTail ++ s) = occurrences m turnTail + occurrences m s :=
    occurrences_append hne (apart_of_last hbreak _ _)
  rw [hhead, hborder, htail, hcontent m hm]
  omega

theorem occurrences_rendered {m : List Char} (hm : m ∈ markers) {turns : List Turn}
    (hturns : ∀ t ∈ turns, Unmarked t.content.toList) (openReply : Bool) :
    occurrences m (rendered turns openReply) =
      occurrences m (replyOpening openReply) + turns.length := by
  induction turns with
  | nil => rfl
  | cons t ts ih =>
      rw [rendered, occurrences_turn hm t.role (hturns t List.mem_cons_self),
        ih fun u hu => hturns u (List.mem_cons_of_mem t hu), List.length_cons, Nat.add_assoc]

/-! ### turns read back -/

theorem turnHead_append_inj {role₁ role₂ : Role} {s₁ s₂ : List Char}
    (h : turnHead role₁ ++ s₁ = turnHead role₂ ++ s₂) : role₁ = role₂ ∧ s₁ = s₂ := by
  cases role₁ <;> cases role₂ <;> simp_all [turnHead, turnStart, Role.name]

theorem replyOpening_ne {openReply : Bool} {role : Role} {content s : List Char} :
    replyOpening openReply ≠ turnHead role ++ (content ++ (turnTail ++ s)) := by
  intro h
  cases openReply with
  | false => simp [replyOpening, turnHead] at h
  | true =>
      rw [replyOpening, if_pos rfl, ← List.append_nil (turnHead .assistant)] at h
      have hrest := (turnHead_append_inj h).2
      simp [turnTail] at hrest

/-- **Turns are read back from their text**, and so is whether it is asked to go on. -/
theorem eq_of_rendered_eq {turns₁ turns₂ : List Turn} {open₁ open₂ : Bool}
    (h₁ : ∀ t ∈ turns₁, Unmarked t.content.toList) (h₂ : ∀ t ∈ turns₂, Unmarked t.content.toList)
    (h : rendered turns₁ open₁ = rendered turns₂ open₂) : turns₁ = turns₂ ∧ open₁ = open₂ := by
  have hend : turnEnd.toList ∈ markers := by decide
  have hunended : ∀ {s : List Char}, Unmarked s → ¬ turnEnd.toList <:+: s :=
    fun hs => (occurrences_eq_zero_iff (by decide)).mp (hs _ hend)
  induction turns₁ generalizing turns₂ with
  | nil =>
      cases turns₂ with
      | nil => cases open₁ <;> cases open₂ <;> simp_all [rendered, replyOpening, turnHead]
      | cons u us => exact absurd h replyOpening_ne
  | cons t ts ih =>
      cases turns₂ with
      | nil => exact absurd h.symm replyOpening_ne
      | cons u us =>
          obtain ⟨hrole, hbehind⟩ := turnHead_append_inj h
          have ht := hunended (h₁ t List.mem_cons_self)
          have hu := hunended (h₂ u List.mem_cons_self)
          rw [turnTail, List.append_assoc, List.append_assoc] at hbehind
          obtain ⟨hcontent, hrest⟩ := append_needle_inj (by decide) ht hu hbehind
          obtain ⟨hts, hopen⟩ := ih (fun v hv => h₁ v (List.mem_cons_of_mem t hv))
            (fun v hv => h₂ v (List.mem_cons_of_mem u hv)) (List.append_cancel_left hrest)
          have htu : t = u := by
            cases t
            cases u
            simp_all [String.toList_inj]
          exact ⟨by rw [htu, hts], hopen⟩

/-! ## tools in their turns -/

/-- How many turns are rendered: one more than there are, when the tools need a turn of their
own. -/
def renderedTurns (tools : List Json) (turns : List Turn) : Nat :=
  if tools = [] ∨ turns.head?.map Turn.role = some .system then turns.length else turns.length + 1

section

variable {tools : List Json}

theorem placeTools_nil (turns : List Turn) : placeTools [] turns = turns := rfl

theorem placeTools_system (h : tools ≠ []) (content : String) (turns : List Turn) :
    placeTools tools (⟨.system, content⟩ :: turns) =
      ⟨.system, content ++ toolsSection tools⟩ :: turns := by
  rw [placeTools, if_neg (by simpa using h)]

/-- Without a system turn at the start, the tools get a turn of their own. -/
theorem placeTools_other (h : tools ≠ []) {turns : List Turn}
    (hturns : turns.head?.map Turn.role ≠ some .system) :
    placeTools tools turns =
      ⟨.system, String.ofList (trimStart (toolsSection tools).toList)⟩ :: turns := by
  unfold placeTools
  rw [if_neg (by simpa using h)]
  split
  · simp at hturns
  · rfl

/-- A first turn is a system turn with some content, or no system turn. -/
theorem system_or_other (turns : List Turn) :
    (∃ content rest, turns = ⟨.system, content⟩ :: rest) ∨
      turns.head?.map Turn.role ≠ some .system := by
  cases turns with
  | nil => simp
  | cons t ts =>
      obtain ⟨role, content⟩ := t
      cases role <;> simp

theorem length_placeTools (turns : List Turn) :
    (placeTools tools turns).length = renderedTurns tools turns := by
  by_cases h : tools = []
  · simp [renderedTurns, h, placeTools_nil]
  · rcases system_or_other turns with ⟨content, rest, rfl⟩ | hother
    · simp [renderedTurns, placeTools_system h]
    · simp [renderedTurns, placeTools_other h hother, h, hother]

/-- The section in a turn of its own is shorter than behind any content. -/
theorem append_toolsSection_ne (content : String) :
    content ++ toolsSection tools ≠
      String.ofList (trimStart (toolsSection tools).toList) := by
  intro h
  have hlist := congrArg String.toList h
  obtain ⟨s, hs⟩ := exists_toolsSection_eq tools
  have hbreak : trimStart ('\n' :: s) = trimStart s := trimStart_blank_append isBlank_break s
  have htrim := (trimStart_isSuffix s).length_le
  have hlength := congrArg List.length hlist
  simp only [String.toList_append, String.toList_ofList, hs, hbreak, List.length_append,
    List.length_cons] at hlength
  omega

/-- **The tools are put into turns in one way only.** -/
theorem placeTools_injective {turns₁ turns₂ : List Turn}
    (h : placeTools tools turns₁ = placeTools tools turns₂) : turns₁ = turns₂ := by
  by_cases htools : tools = []
  · simpa [htools, placeTools_nil] using h
  · rcases system_or_other turns₁ with ⟨content₁, rest₁, rfl⟩ | hother₁ <;>
      rcases system_or_other turns₂ with ⟨content₂, rest₂, rfl⟩ | hother₂
    · rw [placeTools_system htools, placeTools_system htools] at h
      simpa using h
    · rw [placeTools_system htools, placeTools_other htools hother₂] at h
      simp [append_toolsSection_ne] at h
    · rw [placeTools_other htools hother₁, placeTools_system htools] at h
      simp [(append_toolsSection_ne _).symm] at h
    · rw [placeTools_other htools hother₁, placeTools_other htools hother₂] at h
      simpa using h

theorem Unmarked.trimStart {s : List Char} (h : Unmarked s) : Unmarked (trimStart s) := by
  intro m hm
  have hne := (properties_of_mem_markers hm).1
  have hno := (occurrences_eq_zero_iff hne).mp (h m hm)
  exact (occurrences_eq_zero_iff hne).mpr
    fun hin => hno (hin.trans (trimStart_isSuffix s).isInfix)

/-- Turns without markers are without them when they have their tools. -/
theorem unmarked_placeTools (htools : ∀ tool ∈ tools, marker? tool.compact = none)
    {turns : List Turn} (hturns : ∀ t ∈ turns, marker? t.content = none) :
    ∀ t ∈ placeTools tools turns, Unmarked t.content.toList := by
  have hsection := unmarked_toolsSection htools
  have hplain : ∀ t ∈ turns, Unmarked t.content.toList :=
    fun t ht => unmarked_of_marker?_eq_none (hturns t ht)
  by_cases h : tools = []
  · simpa [h, placeTools_nil] using hplain
  · rcases system_or_other turns with ⟨content, rest, rfl⟩ | hother
    · obtain ⟨s, hs⟩ := exists_toolsSection_eq tools
      have hfirst := (hplain _ List.mem_cons_self).append_break hsection (by rw [hs]; rfl)
      rw [placeTools_system h]
      simp_all [String.toList_append]
    · rw [placeTools_other h hother]
      simpa [String.toList_ofList] using ⟨hsection.trimStart, hplain⟩

end

/-! ## no content forges a turn -/

/-- A conversation that is rendered is the text of its turns with their tools, none of which holds a
marker. -/
theorem rendered_of_render {tools : List Json}
    (htools : ∀ tool ∈ tools, marker? tool.compact = none) {turns : List Turn} {openReply : Bool}
    {text : String} (h : render turns tools openReply = .ok text) :
    text.toList = rendered (placeTools tools turns) openReply ∧
      ∀ t ∈ placeTools tools turns, Unmarked t.content.toList := by
  obtain ⟨_, hmarked, rfl⟩ := render_eq_ok_iff.mp h
  exact ⟨toList_rendered _ _, unmarked_placeTools htools (markedTurn?_eq_none_iff.mp hmarked)⟩

/-- **No content forges a turn.**  With tools that hold no marker, a text is rendered from one
conversation only, and it has each marker once for each rendered turn, apart from the one that opens
the reply to come. -/
theorem render_injective {tools : List Json}
    (htools : ∀ tool ∈ tools, marker? tool.compact = none) :
    (∀ turns₁ turns₂ open₁ open₂ text, render turns₁ tools open₁ = .ok text →
      render turns₂ tools open₂ = .ok text → turns₁ = turns₂ ∧ open₁ = open₂) ∧
    ∀ turns openReply text, render turns tools openReply = .ok text →
      occurrences turnStart.toList text.toList =
        renderedTurns tools turns + (if openReply then 1 else 0) ∧
      occurrences turnEnd.toList text.toList = renderedTurns tools turns := by
  constructor
  · intro turns₁ turns₂ open₁ open₂ text h₁ h₂
    obtain ⟨htext₁, hturns₁⟩ := rendered_of_render htools h₁
    obtain ⟨htext₂, hturns₂⟩ := rendered_of_render htools h₂
    obtain ⟨hturns, hopen⟩ := eq_of_rendered_eq hturns₁ hturns₂ (htext₁.symm.trans htext₂)
    exact ⟨placeTools_injective hturns, hopen⟩
  · intro turns openReply text h
    obtain ⟨htext, hturns⟩ := rendered_of_render htools h
    have hstart : occurrences turnStart.toList (replyOpening openReply) =
        if openReply then 1 else 0 := by
      cases openReply <;> decide
    have hend : occurrences turnEnd.toList (replyOpening openReply) = 0 := by
      cases openReply <;> decide
    rw [htext, occurrences_rendered (by decide) hturns, occurrences_rendered (by decide) hturns,
      length_placeTools, hstart, hend]
    omega

/-- A tool that only has a name holds no marker. -/
theorem marker?_lsblk :
    ∀ tool ∈ [Json.object [("name", .string "lsblk")]], marker? tool.compact = none := by
  simp only [List.mem_singleton, forall_eq]
  decide

/-- A content that lacks only the last character of the marker behind it ends no turn. -/
theorem render_cut_marker :
    (∀ tool ∈ [Json.object [("name", .string "lsblk")]], marker? tool.compact = none) ∧
      ∃ text, render [⟨.user, "<|im_end|"⟩] [.object [("name", .string "lsblk")]] true = .ok text ∧
        (∀ turns openReply,
          render turns [.object [("name", .string "lsblk")]] openReply = .ok text →
            turns = [⟨.user, "<|im_end|"⟩] ∧ openReply = true) ∧
        occurrences turnStart.toList text.toList = 3 ∧
        occurrences turnEnd.toList text.toList = 2 := by
  obtain ⟨hinj, hcount⟩ := render_injective marker?_lsblk
  obtain ⟨hstart, hend⟩ := hcount [⟨.user, "<|im_end|"⟩] true _ rfl
  exact ⟨marker?_lsblk, _, rfl, fun turns openReply h => hinj _ _ _ _ _ h rfl, hstart, hend⟩

end InstallAssistant.Chat.ChatML
