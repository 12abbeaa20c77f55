import InstallAssistant.Proofs.Device.Guard
import InstallAssistant.Proofs.Device.Mention
import Mathlib.Logic.Relation

/-!
# InstallAssistant.Proofs.Device.Separator

Redundant separators.  Behind a slash, another slash or `./` may be put in or taken
out (`Doubles`); texts that become one another in this way say the same
(`SameSpelling`).

* A text is collapsed piece by piece, where the pieces meet at a slash
  (`collapseFrom_append_slash`), so one redundant separator changes nothing
  (`Doubles.collapse_eq`).
* A text becomes its collapsed form by taking out separators alone
  (`sameSpelling_collapse`).

So collapsing decides whether two texts say the same (`collapse_eq_iff`), and
commands that do are treated alike (`treatedAlike_of_sameSpelling`).
-/

namespace InstallAssistant.Device

/-! ## one separator -/

/-- A text, and the text with a redundant separator behind one of its slashes. -/
inductive Doubles : (s t : List Char) → Prop
  | slash (u v : List Char) : Doubles (u ++ '/' :: v) (u ++ '/' :: '/' :: v)
  | point (u v : List Char) : Doubles (u ++ '/' :: v) (u ++ '/' :: '.' :: '/' :: v)

/-- **Pieces that meet at a slash** are collapsed one by one: behind a slash it does not matter
whether the slash itself was kept. -/
theorem collapseFrom_append_slash (afterSlash : Bool) (u v : List Char) :
    collapseFrom afterSlash (u ++ '/' :: v) =
      collapseFrom afterSlash (u ++ ['/']) ++ collapseFrom true v := by
  fun_induction collapseFrom afterSlash u with
  | case1 afterSlash => cases afterSlash <;> simp [collapseFrom]
  | case2 rest ih => simpa [collapseFrom] using ih
  | case3 afterSlash rest h ih => simpa [collapseFrom, h] using ih
  | case4 rest ih => simpa [collapseFrom] using ih
  | case5 afterSlash rest h ih => simpa [collapseFrom, h] using ih
  | case6 afterSlash c rest hslash hdot ih =>
      by_cases hend : c = '.' ∧ rest = []
      · obtain ⟨rfl, rfl⟩ := hend
        cases afterSlash <;> simp [collapseFrom]
      · have hhead : ∀ w : List Char, c = '.' → (rest ++ '/' :: w).head? ≠ some '/' := by
          intro w hc hnext
          cases rest with
          | nil => exact hend ⟨hc, rfl⟩
          | cons d rest => exact hdot rest hc (by rw [Option.some.inj hnext])
        rw [List.cons_append, List.cons_append, collapseFrom_cons_of_ne hslash (hhead v),
          collapseFrom_cons_of_ne hslash (hhead []), collapse, collapse, ih, List.cons_append]

namespace Doubles

variable {s t : List Char}

theorem cons (h : Doubles s t) (c : Char) : Doubles (c :: s) (c :: t) := by
  cases h with
  | slash u v => exact slash (c :: u) v
  | point u v => exact point (c :: u) v

/-- **One redundant separator** is collapsed away. -/
theorem collapse_eq (h : Doubles s t) : collapse s = collapse t := by
  unfold collapse
  cases h with
  | slash u v =>
      rw [collapseFrom_append_slash false u v, collapseFrom_append_slash false u ('/' :: v)]
      rfl
  | point u v =>
      rw [collapseFrom_append_slash false u v, collapseFrom_append_slash false u ('.' :: '/' :: v)]
      rfl

end Doubles

/-! ## any number of separators -/

/-- Texts that become one another when redundant separators are put in and taken out. -/
def SameSpelling : (s t : List Char) → Prop := Relation.EqvGen Doubles

namespace SameSpelling

variable {s t : List Char}

theorem cons (h : SameSpelling s t) (c : Char) : SameSpelling (c :: s) (c :: t) := by
  induction h with
  | rel _ _ hstep => exact .rel _ _ (hstep.cons c)
  | refl _ => exact .refl _
  | symm _ _ _ ih => exact .symm _ _ ih
  | trans _ _ _ _ _ ih₁ ih₂ => exact .trans _ _ _ ih₁ ih₂

theorem collapse_eq (h : SameSpelling s t) : collapse s = collapse t := by
  induction h with
  | rel _ _ hstep => exact hstep.collapse_eq
  | refl _ => rfl
  | symm _ _ _ ih => exact ih.symm
  | trans _ _ _ _ _ ih₁ ih₂ => exact ih₁.trans ih₂

/-- Collapsing says the same at every step, with the slash that stands before the text. -/
theorem collapseFrom (afterSlash : Bool) (s : List Char) :
    SameSpelling (if afterSlash then '/' :: s else s)
      (if afterSlash then '/' :: Device.collapseFrom afterSlash s
        else Device.collapseFrom afterSlash s) := by
  fun_induction Device.collapseFrom afterSlash s with
  | case1 afterSlash => exact .refl _
  | case2 rest ih => exact .trans _ _ _ (.symm _ _ (.rel _ _ (.slash [] rest))) ih
  | case3 afterSlash rest h ih =>
      rw [if_neg h, if_neg h]
      exact ih
  | case4 rest ih => exact .trans _ _ _ (.symm _ _ (.rel _ _ (.point [] rest))) ih
  | case5 afterSlash rest h ih =>
      rw [if_neg h, if_neg h]
      exact ih.cons '.'
  | case6 afterSlash c rest hslash hdot ih =>
      cases afterSlash with
      | false => exact ih.cons c
      | true => exact (ih.cons c).cons '/'

end SameSpelling

/-- **A text says the same as its collapsed form.** -/
theorem sameSpelling_collapse (s : List Char) : SameSpelling s (collapse s) := .collapseFrom false s

/-- **Collapsing decides** whether two texts say the same. -/
theorem collapse_eq_iff {s t : List Char} : collapse s = collapse t ↔ SameSpelling s t := by
  constructor
  · intro h
    have ht := sameSpelling_collapse t
    rw [← h] at ht
    exact .trans _ _ _ (sameSpelling_collapse s) (.symm _ _ ht)
  · exact SameSpelling.collapse_eq

/-! ## commands -/

/-- Two commands that mention the same paths, and that the guard replaces because of the same ones
or lets pass, whatever is known and whatever was thought. -/
structure TreatedAlike (s t : String) : Prop where
  paths_eq : paths s = paths t
  downgrade_eq : ∀ (known : Known) (thinking : Option String),
    (verify known ⟨.command, s, thinking⟩).downgrade =
      (verify known ⟨.command, t, thinking⟩).downgrade

/-- Only the collapsed form of a command counts. -/
theorem treatedAlike_of_collapse_eq {s t : String} (h : collapse s.toList = collapse t.toList) :
    TreatedAlike s t := by
  have hpaths : paths s = paths t := by rw [paths, paths, h]
  have hunknown : ∀ known, unknownPaths known s = unknownPaths known t := fun known => by
    rw [unknownPaths, unknownPaths, hpaths]
  exact ⟨hpaths, fun known thinking => by rw [downgrade_verify, downgrade_verify, hunknown]⟩

/-- **Redundant separators change nothing.**  Two slashes or `/./` are as good as one slash wherever
they stand.  Any number of them may be put in and taken out: the commands that become one another so
are the ones with the same collapsed form, and are treated alike. -/
theorem treatedAlike_of_sameSpelling :
    (∀ u v : String, TreatedAlike (u ++ "//" ++ v) (u ++ "/" ++ v) ∧
      TreatedAlike (u ++ "/./" ++ v) (u ++ "/" ++ v)) ∧
    ∀ s t : String, (SameSpelling s.toList t.toList ↔ collapse s.toList = collapse t.toList) ∧
      (SameSpelling s.toList t.toList → TreatedAlike s t) := by
  constructor
  · intro u v
    have hslash := Doubles.slash u.toList v.toList
    have hpoint := Doubles.point u.toList v.toList
    constructor
    · exact treatedAlike_of_collapse_eq (by simpa using hslash.collapse_eq.symm)
    · exact treatedAlike_of_collapse_eq (by simpa using hpoint.collapse_eq.symm)
  · intro s t
    exact ⟨collapse_eq_iff.symm, fun h => treatedAlike_of_collapse_eq h.collapse_eq⟩

/-- A drive that is not there, behind a run of separators and within one. -/
theorem treatedAlike_wipe :
    SameSpelling "wipefs -a ///./dev/.//sdz".toList "wipefs -a /dev/sdz".toList ∧
      TreatedAlike "wipefs -a ///./dev/.//sdz" "wipefs -a /dev/sdz" ∧
      (verify ⟨["/dev/sda"]⟩ ⟨.command, "wipefs -a ///./dev/.//sdz", none⟩).downgrade =
        some ⟨["/dev/sdz"]⟩ := by
  obtain ⟨hiff, halike⟩ := treatedAlike_of_sameSpelling.2 "wipefs -a ///./dev/.//sdz"
    "wipefs -a /dev/sdz"
  have hsame := hiff.mpr (by decide)
  refine ⟨hsame, halike hsame, ?_⟩
  rw [(halike hsame).downgrade_eq]
  decide +kernel

end InstallAssistant.Device
