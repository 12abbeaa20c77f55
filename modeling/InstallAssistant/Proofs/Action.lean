import InstallAssistant.Action
import InstallAssistant.Proofs.Json.Print
import InstallAssistant.Proofs.Text

/-!
# InstallAssistant.Proofs.Action

Actions as they are built and as records expect them.  What is built is trimmed
(`trimmed_of_make`), and building a trimmed action again changes nothing
(`make_of_trimmed`).  Expected responses are read back from their JSON text
(`Expected.parse?_pretty`), so a trimmed action comes back from the text of a
record that expects it (`Trimmed.recordable`).
-/

namespace InstallAssistant.Action

/-! ## trimmed actions -/

/-- The content and the reasoning of an action are as they are when it is built. -/
structure Trimmed (a : Action) : Prop where
  content : Text.nonBlank? a.content = some a.content
  thinking : ∀ t ∈ a.thinking, Text.nonBlank? t = some t

theorem trimmed_of_make {kind : Kind} {content : String} {thinking : Option String} {a : Action}
    (h : make kind content thinking = .ok a) : a.Trimmed ∧ a.kind = kind := by
  unfold make at h
  cases hc : Text.nonBlank? content with
  | none =>
      rw [hc] at h
      contradiction
  | some c =>
      rw [hc] at h
      injection h with h
      subst h
      refine ⟨⟨Text.nonBlank?_of_eq_some hc, ?_⟩, rfl⟩
      intro t ht
      obtain ⟨s, _, hs⟩ := Option.bind_eq_some_iff.mp ht
      exact Text.nonBlank?_of_eq_some hs

theorem make_of_trimmed {a : Action} (h : a.Trimmed) :
    make a.kind a.content a.thinking = .ok a := by
  have hthinking : a.thinking.bind Text.nonBlank? = a.thinking := by
    cases ht : a.thinking with
    | none => rfl
    | some t => rw [Option.bind_some, h.thinking t (Option.mem_def.mpr ht)]
  rw [make, h.content, hthinking]

/-! ## expected responses -/

/-- **A trimmed action comes back** from what a record expects for it. -/
theorem ofExpected_toExpected {a : Action} (h : a.Trimmed) : ofExpected a.toExpected = .ok a := by
  have hmake := make_of_trimmed h
  obtain ⟨kind, content, thinking⟩ := a
  cases kind <;> simpa [toExpected, ofExpected, Expected.field, Kind.other] using hmake

namespace Expected

theorem finite_toJson (e : Expected) : e.toJson.finite = true := by
  obtain ⟨kind, command, response, thinking⟩ := e
  cases command <;> cases response <;> cases thinking <;> rfl

/-- The fields of a record are found in its object, and missing ones are missing. -/
theorem reader_toJson (e : Expected) (room : Nat) :
    reader (room + 1) (.ofJson e.toJson) = some e := by
  obtain ⟨kind, command, response, thinking⟩ := e
  cases kind <;> cases command <;> cases response <;> cases thinking <;> rfl

/-- **Expected responses are read back** from their indented text. -/
theorem parse?_pretty (e : Expected) : reader.parse? e.toJson.pretty = some e := by
  rw [Json.Reader.parse?, Json.Tree.parse?_pretty e.finite_toJson, Option.bind_some]
  exact reader_toJson e _

/-- **Expected responses are read back** from a line of a record. -/
theorem parse?_compact (e : Expected) : reader.parse? e.toJson.compact = some e := by
  rw [Json.Reader.parse?, Json.Tree.parse?_compact e.finite_toJson, Option.bind_some]
  exact reader_toJson e _

end Expected

/-! ## recordable actions -/

/-- An action in the form in which records keep it: its content is trimmed and not empty, and so is
its reasoning if there is any, and it comes back from the JSON text of a record, indented or on one
line. -/
structure Recordable (a : Action) : Prop where
  content : Text.IsTrimmed a.content.toList ∧ a.content ≠ ""
  thinking : ∀ t ∈ a.thinking, Text.IsTrimmed t.toList ∧ t ≠ ""
  indented : (Expected.reader.parse? a.toJson.pretty).map ofExpected = some (.ok a)
  line : (Expected.reader.parse? a.toJson.compact).map ofExpected = some (.ok a)

/-- **Trimmed actions are recordable.** -/
theorem Trimmed.recordable {a : Action} (h : a.Trimmed) : a.Recordable where
  content := Text.nonBlank?_eq_self_iff.mp h.content
  thinking := fun t ht => Text.nonBlank?_eq_self_iff.mp (h.thinking t ht)
  indented := by
    rw [toJson, Expected.parse?_pretty, Option.map_some, ofExpected_toExpected h]
  line := by
    rw [toJson, Expected.parse?_compact, Option.map_some, ofExpected_toExpected h]

end InstallAssistant.Action
