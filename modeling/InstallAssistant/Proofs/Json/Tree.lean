import InstallAssistant.Json.Tree
import InstallAssistant.Proofs.Json.Mark

/-!
# InstallAssistant.Proofs.Json.Tree

No JSON text made of marks can be cut short: a tree ends with the token that
closes it (`ofTokens?_prefix_free`), so of the text of a tree no proper beginning
spells a tree (`parse?_cut`).
-/

namespace InstallAssistant.Json.Tree

open Token

/-- Nothing may follow a tree that is complete. -/
theorem step_complete (v : Tree) (t : Token) : step (.after v []) t = none := by
  cases t <;> rfl

theorem foldlM_step_complete {v : Tree} {ts : List Token} {p : Progress}
    (h : ts.foldlM step (.after v []) = some p) : ts = [] := by
  cases ts with
  | nil => rfl
  | cons t ts =>
      rw [List.foldlM_cons, step_complete] at h
      contradiction

theorem ofTokens?_eq_some_iff {ts : List Token} {v : Tree} :
    ofTokens? ts = some v ↔ ts.foldlM step (.value []) = some (.after v []) := by
  unfold ofTokens?
  constructor
  · intro h
    split at h
    · next heq => rw [heq, Option.some.inj h]
    · contradiction
  · intro h
    rw [h]

/-- **Trees are prefix-free**: when tokens spell a tree, no proper beginning of them does. -/
theorem ofTokens?_prefix_free {ts us : List Token} {v w : Tree} (h : ts <+: us)
    (hv : ofTokens? ts = some v) (hw : ofTokens? us = some w) : ts = us := by
  obtain ⟨rest, rfl⟩ := h
  rw [ofTokens?_eq_some_iff] at hv hw
  rw [List.foldlM_append, hv] at hw
  rw [foldlM_step_complete hw, List.append_nil]

theorem parse?_text (ms : List Mark) :
    parse? (String.ofList (text ms)) = ofTokens? (ms.map Mark.token) := by
  rw [parse?, String.toList_ofList, ofChars?_text, Option.bind_some]

/-- **Cut texts**: a proper beginning of the text of a tree spells no tree. -/
theorem parse?_cut {ms : List Mark} {v : Tree} (hv : ofTokens? (ms.map Mark.token) = some v)
    {p : List Char} (hp : p <+: text ms) (hne : p ≠ text ms) :
    parse? (String.ofList p) = none := by
  rw [parse?, String.toList_ofList]
  cases hts : ofChars? p with
  | none => rfl
  | some ts =>
      obtain ⟨ks, hks, rfl, rfl⟩ := exists_of_prefix_text hp hts
      rw [Option.bind_some]
      cases hw : ofTokens? (ks.map Mark.token) with
      | none => rfl
      | some w =>
          have heq := ofTokens?_prefix_free (hks.map Mark.token) hw hv
          have hlen : ks.length = ms.length := by simpa using congrArg List.length heq
          exact absurd (congrArg text (hks.eq_of_length hlen)) hne

end InstallAssistant.Json.Tree
