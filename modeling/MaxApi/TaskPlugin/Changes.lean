import MaxApi.TaskPlugin.Commit

/-! # What the callers send

The documents of the store come from the packages that the calls bring, so a set that contains the
documents of all calls contains all documents there ever are. -/

namespace MaxApi.TaskPlugin

open Checked

variable {lib : Library} {documents : Set String}

/-- The packages that a change brings have documents of the set. -/
def Change.Sends (documents : Set String) : Change lib → Prop
  | .install ps => ∀ p ∈ ps, p.document ∈ documents
  | _ => True

def Task.Sends (documents : Set String) : Task lib → Prop
  | .refresh => True
  | .update _ change => change.Sends documents

def Op.Sends (documents : Set String) : Op lib → Prop
  | .begin _ task => task.Sends documents
  | .storeCall _ packages => Known documents packages
  | _ => True

/-- The call that a node is in. -/
def Phase.task : Phase lib → Option (Task lib)
  | .idle => none
  | .starting task _ | .reading task _ _ | .read task _ _ _ | .loaded task _ _ => some task
  | .swapping task _ _ | .swapped task _ _ _ => some task

theorem known_modify {es : List StoredPackage} (f : StoredPackage → StoredPackage)
    (hf : ∀ e, (f e).document = e.document) (h : Known documents es) (i : ℕ) :
    Known documents (es.modify i f) := by
  intro e he
  obtain ⟨j, hj, rfl⟩ := List.mem_iff_getElem.mp he
  rw [List.getElem_modify]
  split
  · rw [hf]
    exact h _ (List.getElem_mem _)
  · exact h _ (List.getElem_mem _)

theorem known_deactivated {es : List StoredPackage} (h : Known documents es) (key : String) :
    Known documents (es.map fun e =>
      if (sameKey lib key e).isSome then { e with active := false } else e) := by
  intro e he
  obtain ⟨a, ha, rfl⟩ := List.mem_map.mp he
  split
  · exact h a ha
  · exact h a ha

theorem known_installPackage {es es' : List StoredPackage} {p : Package lib}
    (h : Known documents es) (hp : p.document ∈ documents)
    (hes : installPackage lib es p = .ok es') : Known documents es' := by
  unfold installPackage at hes
  simp only [ok_bind, ok_pure] at hes
  obtain ⟨index, -, rfl⟩ := hes
  cases index with
  | some i =>
      refine known_modify StoredPackage.activated ?_ (known_deactivated h _) i
      exact fun _ => rfl
  | none =>
      intro e he
      rcases List.mem_append.mp he with he | he
      · exact known_deactivated h _ e he
      · rw [List.mem_singleton.mp he]
        exact hp

theorem known_install : ∀ {ps : List (Package lib)} {es es' : List StoredPackage},
    Known documents es → (∀ p ∈ ps, p.document ∈ documents) →
      ps.foldlM (installPackage lib) es = .ok es' → Known documents es'
  | [], es, es', h, _, hes => by
      obtain rfl : es = es' := Except.ok.inj hes
      exact h
  | p :: ps, es, es', h, hps, hes => by
      rw [List.foldlM_cons, ok_bind] at hes
      obtain ⟨mid, hmid, hrest⟩ := hes
      rw [List.forall_mem_cons] at hps
      exact known_install (known_installPackage h hps.1 hmid) hps.2 hrest

theorem known_setCatalogEnabled {es es' : List StoredPackage} {key : String} {enabled : Bool}
    (h : Known documents es) (hes : setCatalogEnabled lib es key enabled = .ok es') :
    Known documents es' := by
  unfold setCatalogEnabled at hes
  simp only [ok_bind, ok_require, ok_pure] at hes
  obtain ⟨index, -, -, -, rfl⟩ := hes
  refine known_modify _ ?_ h index
  exact fun _ => rfl

/-- A change brings no documents but those of its packages. -/
theorem known_apply {change : Change lib} {es es' : List StoredPackage} (h : Known documents es)
    (hsends : change.Sends documents) (hes : change.apply lib es = .ok es') :
    Known documents es' := by
  cases change with
  | install ps =>
      simp only [Change.apply, installCatalogPackages, ok_bind, ok_require] at hes
      obtain ⟨-, -, hes⟩ := hes
      exact known_install h hsends hes
  | activate key version =>
      simp only [Change.apply, activateCatalogVersion, ok_bind, ok_require, ok_pure] at hes
      obtain ⟨index, -, -, -, rfl⟩ := hes
      refine known_modify StoredPackage.activated ?_ (known_deactivated h _) index
      exact fun _ => rfl
  | setEnabled key enabled => exact known_setCatalogEnabled h hes
  | setVersionEnabled key version enabled =>
      simp only [Change.apply, ok_bind, ok_require] at hes
      obtain ⟨-, -, -, -, hes⟩ := hes
      exact known_setCatalogEnabled h hes
  | revoke key version =>
      simp only [Change.apply, revokeCatalogVersion, ok_bind, ok_pure] at hes
      obtain ⟨index, -, rfl⟩ := hes
      refine known_modify _ ?_ h index
      exact fun _ => rfl

end MaxApi.TaskPlugin
