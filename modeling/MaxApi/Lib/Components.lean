import Mathlib.Data.Set.Card
import Mathlib.Logic.Relation

/-! # Connected components of labelled edges

An edge joins its vertices and has a label.  A component is pure if all its edges have one label,
and its vertices are spoiled otherwise.  Only which edges there are matters, not their order nor how
often each of them comes (`cells_congr`).

What a further edge does to the pure components is told by two cases (`cells_concat_conflict`,
`cells_concat_pure`): it spoils those that it touches, or joins them. -/

namespace Components

variable {L V : Type}

structure Edge (L V : Type) where
  label : L
  vertices : List V

/-- The two vertices are on one edge. -/
def Touching (edges : List (Edge L V)) (a b : V) : Prop :=
  ∃ e ∈ edges, a ∈ e.vertices ∧ b ∈ e.vertices

/-- The two vertices are connected. -/
def Linked (edges : List (Edge L V)) : V → V → Prop := Relation.EqvGen (Touching edges)

/-- The vertices of the edges. -/
def vertices (edges : List (Edge L V)) : Set V := {a | ∃ e ∈ edges, a ∈ e.vertices}

/-- The component of a vertex. -/
def component (edges : List (Edge L V)) (a : V) : Set V := {b | Linked edges a b}

/-- All edges that are connected to the vertex have the label. -/
def Pure (edges : List (Edge L V)) (a : V) (label : L) : Prop :=
  ∀ e ∈ edges, ∀ b ∈ e.vertices, Linked edges a b → e.label = label

/-- The pure components of a label. -/
def cells (edges : List (Edge L V)) (label : L) : Set (Set V) :=
  {C | ∃ a ∈ vertices edges, C = component edges a ∧ Pure edges a label}

/-- The vertices of components that are not pure. -/
def spoiled (edges : List (Edge L V)) : Set V :=
  {a | a ∈ vertices edges ∧ ∀ label, ¬Pure edges a label}

/-! ### Connection -/

section linked

variable {edges : List (Edge L V)} {a b c : V} {label : L}

theorem Linked.refl (edges : List (Edge L V)) (a : V) : Linked edges a a := Relation.EqvGen.refl a

theorem Linked.symm (h : Linked edges a b) : Linked edges b a := Relation.EqvGen.symm a b h

theorem Linked.trans (h : Linked edges a b) (h' : Linked edges b c) : Linked edges a c :=
  Relation.EqvGen.trans a b c h h'

theorem Linked.of_edge {e : Edge L V} (he : e ∈ edges) (ha : a ∈ e.vertices)
    (hb : b ∈ e.vertices) : Linked edges a b := Relation.EqvGen.rel a b ⟨e, he, ha, hb⟩

theorem Linked.mono {edges' : List (Edge L V)} (hsub : ∀ e ∈ edges, e ∈ edges')
    (h : Linked edges a b) : Linked edges' a b :=
  Relation.EqvGen.mono (fun _ _ ⟨e, he, hab⟩ => ⟨e, hsub e he, hab⟩) a b h

/-- What is connected to a vertex of the edges is one itself. -/
theorem Linked.mem_vertices (h : Linked edges a b) : a ∈ vertices edges ↔ b ∈ vertices edges := by
  induction h with
  | rel x y h =>
      obtain ⟨e, he, hx, hy⟩ := h
      exact ⟨fun _ => ⟨e, he, hy⟩, fun _ => ⟨e, he, hx⟩⟩
  | refl x => exact Iff.rfl
  | symm x y _ ih => exact ih.symm
  | trans x y z _ _ ih ih' => exact ih.trans ih'

/-- Connected vertices have one component. -/
theorem Linked.component_eq (h : Linked edges a b) : component edges a = component edges b := by
  ext c
  exact ⟨fun hac => h.symm.trans hac, fun hbc => h.trans hbc⟩

theorem Linked.pure (h : Linked edges a b) (hpure : Pure edges a label) : Pure edges b label :=
  fun e he c hc hbc => hpure e he c hc (h.trans hbc)

/-- The label of a pure component is unique. -/
theorem Pure.label_eq {label' : L} (h : Pure edges a label) (h' : Pure edges a label')
    (ha : a ∈ vertices edges) : label = label' := by
  obtain ⟨e, he, hae⟩ := ha
  exact (h e he a hae (Linked.refl edges a)).symm.trans (h' e he a hae (Linked.refl edges a))

theorem cells_congr {edges' : List (Edge L V)} (h : ∀ e, e ∈ edges ↔ e ∈ edges') (label : L) :
    cells edges label = cells edges' label := by
  have hlinked : ∀ a b, Linked edges a b ↔ Linked edges' a b := fun a b =>
    ⟨Linked.mono fun e he => (h e).mp he, Linked.mono fun e he => (h e).mpr he⟩
  have hvertices : vertices edges = vertices edges' := by
    ext a
    exact exists_congr fun e => and_congr_left fun _ => h e
  have hcomponent : ∀ a, component edges a = component edges' a := fun a => by
    ext b
    exact hlinked a b
  have hpure : ∀ a, Pure edges a label ↔ Pure edges' a label := by
    intro a
    constructor
    · exact fun hp e he b hb hab => hp e ((h e).mpr he) b hb ((hlinked a b).mpr hab)
    · exact fun hp e he b hb hab => hp e ((h e).mp he) b hb ((hlinked a b).mp hab)
  ext C
  show (∃ a ∈ vertices edges, C = component edges a ∧ Pure edges a label) ↔
    ∃ a ∈ vertices edges', C = component edges' a ∧ Pure edges' a label
  simp only [hvertices, hcomponent, hpure]

/-- A pure component is the one of each of its vertices. -/
theorem mem_cells {C : Set V} (hC : C ∈ cells edges label) (ha : a ∈ C) :
    a ∈ vertices edges ∧ C = component edges a ∧ Pure edges a label := by
  obtain ⟨b, hb, rfl, hpure⟩ := hC
  exact ⟨(Linked.mem_vertices ha).mp hb, Linked.component_eq ha, Linked.pure ha hpure⟩

theorem cells_nonempty {C : Set V} (hC : C ∈ cells edges label) : C.Nonempty := by
  obtain ⟨b, -, rfl, -⟩ := hC
  exact ⟨b, Linked.refl edges b⟩

/-- A vertex is spoiled or in a pure component. -/
theorem vertex_cases (ha : a ∈ vertices edges) :
    a ∈ spoiled edges ∨ ∃ label, component edges a ∈ cells edges label := by
  by_cases h : ∃ label, Pure edges a label
  · obtain ⟨label, hpure⟩ := h
    exact .inr ⟨label, a, ha, rfl, hpure⟩
  · exact .inl ⟨ha, fun label hpure => h ⟨label, hpure⟩⟩

theorem Linked.spoiled (h : Linked edges a b) (ha : a ∈ spoiled edges) : b ∈ spoiled edges :=
  ⟨h.mem_vertices.mp ha.1, fun label hpure => ha.2 label (h.symm.pure hpure)⟩

end linked

/-! ### A further edge -/

section concat

variable {edges : List (Edge L V)} {e : Edge L V} {a b : V} {label : L}

/-- The vertex is connected to the new edge. -/
def Meets (edges : List (Edge L V)) (e : Edge L V) (a : V) : Prop :=
  ∃ x ∈ e.vertices, Linked edges a x

theorem Meets.of_linked (h : Linked edges a b) (hb : Meets edges e b) : Meets edges e a := by
  obtain ⟨x, hx, hbx⟩ := hb
  exact ⟨x, hx, h.trans hbx⟩

theorem linked_concat :
    Linked (edges ++ [e]) a b ↔ Linked edges a b ∨ (Meets edges e a ∧ Meets edges e b) := by
  constructor
  · intro h
    induction h with
    | rel x y h =>
        obtain ⟨e', he', hx, hy⟩ := h
        rcases List.mem_append.mp he' with he' | he'
        · exact .inl (Linked.of_edge he' hx hy)
        · rw [List.mem_singleton.mp he'] at hx hy
          exact .inr ⟨⟨x, hx, Linked.refl edges x⟩, ⟨y, hy, Linked.refl edges y⟩⟩
    | refl x => exact .inl (Linked.refl edges x)
    | symm x y _ ih => exact ih.imp Linked.symm And.symm
    | trans x y z _ _ ih ih' =>
        rcases ih with hxy | ⟨hx, hy⟩
        · rcases ih' with hyz | ⟨hy, hz⟩
          · exact .inl (hxy.trans hyz)
          · exact .inr ⟨hy.of_linked hxy, hz⟩
        · rcases ih' with hyz | ⟨_, hz⟩
          · exact .inr ⟨hx, hy.of_linked hyz.symm⟩
          · exact .inr ⟨hx, hz⟩
  · have hmono : ∀ {x y}, Linked edges x y → Linked (edges ++ [e]) x y :=
      Linked.mono fun e' he' => List.mem_append_left [e] he'
    rintro (h | ⟨⟨x, hx, hax⟩, ⟨y, hy, hby⟩⟩)
    · exact hmono h
    · have hxy : Linked (edges ++ [e]) x y :=
        Linked.of_edge (List.mem_append_right edges (List.mem_singleton.mpr rfl)) hx hy
      exact ((hmono hax).trans hxy).trans (hmono hby).symm

theorem mem_vertices_concat :
    a ∈ vertices (edges ++ [e]) ↔ a ∈ vertices edges ∨ a ∈ e.vertices := by
  constructor
  · rintro ⟨e', he', ha⟩
    rcases List.mem_append.mp he' with he' | he'
    · exact .inl ⟨e', he', ha⟩
    · exact .inr (List.mem_singleton.mp he' ▸ ha)
  · rintro (⟨e', he', ha⟩ | ha)
    · exact ⟨e', List.mem_append_left [e] he', ha⟩
    · exact ⟨e, List.mem_append_right edges (List.mem_singleton.mpr rfl), ha⟩

/-- Elsewhere nothing changes. -/
theorem pure_concat_of_not_meets (h : ¬Meets edges e a) :
    Pure (edges ++ [e]) a label ↔ Pure edges a label := by
  constructor
  · intro hp e' he' b hb hab
    exact hp e' (List.mem_append_left [e] he') b hb (linked_concat.mpr (.inl hab))
  · intro hp e' he' b hb hab
    have hlinked : Linked edges a b :=
      (linked_concat.mp hab).resolve_right fun hm => h hm.1
    rcases List.mem_append.mp he' with he' | he'
    · exact hp e' he' b hb hlinked
    · rw [List.mem_singleton.mp he'] at hb
      exact absurd ⟨b, hb, hlinked⟩ h

theorem component_concat_of_not_meets (h : ¬Meets edges e a) :
    component (edges ++ [e]) a = component edges a := by
  ext b
  exact linked_concat.trans (or_iff_left fun hm => h hm.1)

theorem component_concat_of_meets (h : Meets edges e a) :
    component (edges ++ [e]) a = {b | Meets edges e b} := by
  ext b
  refine linked_concat.trans ⟨?_, fun hb => .inr ⟨h, hb⟩⟩
  rintro (hab | hm)
  · exact h.of_linked hab.symm
  · exact hm.2

/-- The new component is pure if the old ones are, with the label of the edge. -/
theorem pure_concat_of_meets (h : Meets edges e a) :
    Pure (edges ++ [e]) a label ↔
      e.vertices ≠ [] ∧ e.label = label ∧ ∀ x ∈ e.vertices, Pure edges x label := by
  have hnew : ∀ b, Meets edges e b → Linked (edges ++ [e]) a b := fun b hb =>
    linked_concat.mpr (.inr ⟨h, hb⟩)
  obtain ⟨x₀, hx₀, _⟩ := h
  constructor
  · intro hp
    refine ⟨List.ne_nil_of_mem hx₀, ?_, fun x hx e' he' b hb hxb => ?_⟩
    · exact hp e (List.mem_append_right edges (List.mem_singleton.mpr rfl)) x₀ hx₀
        (hnew x₀ ⟨x₀, hx₀, Linked.refl edges x₀⟩)
    · exact hp e' (List.mem_append_left [e] he') b hb (hnew b ⟨x, hx, hxb.symm⟩)
  · rintro ⟨-, hlabel, hpure⟩ e' he' b hb hab
    have hm : Meets edges e b := by
      rcases linked_concat.mp hab with hlinked | hm
      · exact Meets.of_linked hlinked.symm ⟨x₀, hx₀, by assumption⟩
      · exact hm.2
    rcases List.mem_append.mp he' with he' | he'
    · obtain ⟨x, hx, hbx⟩ := hm
      exact hpure x hx e' he' b hb hbx.symm
    · rw [List.mem_singleton.mp he', hlabel]

/-- What is connected to a vertex that is on no edge. -/
theorem Linked.eq_of_not_mem (h : Linked edges a b) (ha : a ∉ vertices edges) : a = b := by
  induction h with
  | rel x y h =>
      obtain ⟨e, he, hx, -⟩ := h
      exact absurd ⟨e, he, hx⟩ ha
  | refl x => rfl
  | symm x y h ih => exact (ih fun hx => ha ((Linked.mem_vertices h).mp hx)).symm
  | trans x y z h _ ih ih' =>
      exact (ih ha).trans (ih' fun hy => ha ((Linked.mem_vertices h).mpr hy))

/-- The edge reaches its own vertices, and the components of those. -/
theorem meets_iff : Meets edges e b ↔ b ∈ e.vertices ∨
    (∃ x ∈ e.vertices, x ∈ spoiled edges ∧ Linked edges b x) ∨
      ∃ label, ∃ C ∈ cells edges label, b ∈ C ∧ ∃ x ∈ e.vertices, x ∈ C := by
  constructor
  · rintro ⟨x, hx, hbx⟩
    by_cases hvertex : x ∈ vertices edges
    · rcases vertex_cases hvertex with hspoiled | ⟨label, hC⟩
      · exact .inr (.inl ⟨x, hx, hspoiled, hbx⟩)
      · exact .inr (.inr ⟨label, _, hC, hbx.symm, x, hx, Linked.refl edges x⟩)
    · have hxb := Linked.eq_of_not_mem hbx.symm hvertex
      exact .inl (hxb ▸ hx)
  · rintro (hb | ⟨x, hx, -, hbx⟩ | ⟨label, C, hC, hb, x, hx, hxC⟩)
    · exact ⟨b, hb, Linked.refl edges b⟩
    · exact ⟨x, hx, hbx⟩
    · obtain ⟨-, rfl, -⟩ := mem_cells hC hb
      exact ⟨x, hx, hxC⟩

/-- A component that the edge does not touch. -/
theorem not_meets_of_cell {C : Set V} (hC : C ∈ cells edges label)
    (h : ∀ x ∈ e.vertices, x ∉ C) (ha : a ∈ C) : ¬Meets edges e a := by
  rintro ⟨x, hx, hax⟩
  obtain ⟨-, rfl, -⟩ := mem_cells hC ha
  exact h x hx hax

/-- Components that the edge does not touch stay pure, and no others do. -/
theorem untouched_cells {C : Set V} :
    (C ∈ cells edges label ∧ ∀ x ∈ e.vertices, x ∉ C) ↔
      ∃ a ∈ vertices (edges ++ [e]), ¬Meets edges e a ∧ C = component (edges ++ [e]) a ∧
        Pure (edges ++ [e]) a label := by
  constructor
  · rintro ⟨hC, h⟩
    obtain ⟨a, ha, hCa, hpure⟩ := hC
    have hmem : a ∈ C := by
      rw [hCa]
      exact Linked.refl edges a
    have hmeets := not_meets_of_cell ⟨a, ha, hCa, hpure⟩ h hmem
    refine ⟨a, mem_vertices_concat.mpr (.inl ha), hmeets, ?_, ?_⟩
    · rw [hCa, component_concat_of_not_meets hmeets]
    · exact (pure_concat_of_not_meets hmeets).mpr hpure
  · rintro ⟨a, ha, hmeets, rfl, hpure⟩
    rw [component_concat_of_not_meets hmeets]
    have hvertex : a ∈ vertices edges := (mem_vertices_concat.mp ha).resolve_right
      fun hae => hmeets ⟨a, hae, Linked.refl edges a⟩
    exact ⟨⟨a, hvertex, rfl, (pure_concat_of_not_meets hmeets).mp hpure⟩,
      fun x hx hax => hmeets ⟨x, hx, hax⟩⟩

theorem Meets.mem_vertices (h : Meets edges e a) : a ∈ vertices (edges ++ [e]) := by
  obtain ⟨x, hx, hax⟩ := h
  rw [mem_vertices_concat]
  by_cases hvertex : x ∈ vertices edges
  · exact .inl (hax.mem_vertices.mpr hvertex)
  · exact .inr (Linked.eq_of_not_mem hax.symm hvertex ▸ hx)

/-- The edge finds a conflict: a spoiled vertex, or a component of another label. -/
def Conflict (edges : List (Edge L V)) (e : Edge L V) : Prop :=
  (∃ x ∈ e.vertices, x ∈ spoiled edges) ∨
    ∃ label, ∃ C ∈ cells edges label, (∃ x ∈ e.vertices, x ∈ C) ∧ label ≠ e.label

/-- What the edge meets is pure afterwards if there is no conflict. -/
theorem pure_concat_iff (h : Meets edges e a) :
    Pure (edges ++ [e]) a label ↔ e.label = label ∧ ¬Conflict edges e := by
  obtain ⟨x₀, hx₀, hax₀⟩ := h
  rw [pure_concat_of_meets ⟨x₀, hx₀, hax₀⟩]
  constructor
  · rintro ⟨-, hlabel, hpure⟩
    refine ⟨hlabel, ?_⟩
    rintro (⟨x, hx, hspoiled⟩ | ⟨label', C, hC, ⟨x, hx, hxC⟩, hne⟩)
    · exact hspoiled.2 label (hpure x hx)
    · obtain ⟨hvertex, -, hpure'⟩ := mem_cells hC hxC
      exact hne ((hpure'.label_eq (hpure x hx) hvertex).trans hlabel.symm)
  · rintro ⟨hlabel, hno⟩
    refine ⟨List.ne_nil_of_mem hx₀, hlabel, fun x hx => ?_⟩
    by_cases hvertex : x ∈ vertices edges
    · rcases vertex_cases hvertex with hspoiled | ⟨label', hC⟩
      · exact absurd (.inl ⟨x, hx, hspoiled⟩) hno
      · have hlabel' : label' = label := by
          by_contra hne
          exact hno (.inr ⟨label', _, hC, ⟨x, hx, Linked.refl edges x⟩,
            fun heq => hne (heq.trans hlabel)⟩)
        exact hlabel' ▸ (mem_cells hC (Linked.refl edges x)).2.2
    · intro e' he' b hb hxb
      exact absurd ⟨e', he', Linked.eq_of_not_mem hxb hvertex ▸ hb⟩ hvertex

/-- A conflict spoils all that the edge meets. -/
theorem cells_concat_conflict (h : Conflict edges e) {C : Set V} :
    C ∈ cells (edges ++ [e]) label ↔ C ∈ cells edges label ∧ ∀ x ∈ e.vertices, x ∉ C := by
  rw [untouched_cells]
  constructor
  · rintro ⟨a, ha, hC, hpure⟩
    exact ⟨a, ha, fun hmeets => ((pure_concat_iff hmeets).mp hpure).2 h, hC, hpure⟩
  · rintro ⟨a, ha, -, hC, hpure⟩
    exact ⟨a, ha, hC, hpure⟩

theorem spoiled_concat_conflict (h : Conflict edges e) :
    a ∈ spoiled (edges ++ [e]) ↔ a ∈ spoiled edges ∨ a ∈ e.vertices ∨
      ∃ label, ∃ C ∈ cells edges label, a ∈ C ∧ ∃ x ∈ e.vertices, x ∈ C := by
  constructor
  · rintro ⟨ha, hpure⟩
    by_cases hmeets : Meets edges e a
    · rcases meets_iff.mp hmeets with hae | ⟨x, hx, hspoiled, hax⟩ | hcell
      · exact .inr (.inl hae)
      · exact .inl (Linked.spoiled hax.symm hspoiled)
      · exact .inr (.inr hcell)
    · have hvertex : a ∈ vertices edges := (mem_vertices_concat.mp ha).resolve_right
        fun hae => hmeets ⟨a, hae, Linked.refl edges a⟩
      exact .inl ⟨hvertex, fun label hp => hpure label ((pure_concat_of_not_meets hmeets).mpr hp)⟩
  · intro ha
    by_cases hmeets : Meets edges e a
    · exact ⟨hmeets.mem_vertices, fun label hp => ((pure_concat_iff hmeets).mp hp).2 h⟩
    · obtain ha | ha := ha
      · exact ⟨mem_vertices_concat.mpr (.inl ha.1), fun label hp =>
          ha.2 label ((pure_concat_of_not_meets hmeets).mp hp)⟩
      · exact absurd (meets_iff.mpr (ha.imp_right .inr)) hmeets

/-- Without a conflict the edge joins the components that it touches. -/
theorem cells_concat_pure (h : ¬Conflict edges e) (hne : e.vertices ≠ []) {C : Set V} :
    C ∈ cells (edges ++ [e]) label ↔ (C ∈ cells edges label ∧ ∀ x ∈ e.vertices, x ∉ C) ∨
      (label = e.label ∧ C = {b | Meets edges e b}) := by
  rw [untouched_cells]
  constructor
  · rintro ⟨a, ha, hC, hpure⟩
    by_cases hmeets : Meets edges e a
    · rw [component_concat_of_meets hmeets] at hC
      exact .inr ⟨((pure_concat_iff hmeets).mp hpure).1.symm, hC⟩
    · exact .inl ⟨a, ha, hmeets, hC, hpure⟩
  · rintro (⟨a, ha, -, hC, hpure⟩ | ⟨rfl, hC⟩)
    · exact ⟨a, ha, hC, hpure⟩
    · obtain ⟨x, hx⟩ := List.exists_mem_of_ne_nil e.vertices hne
      have hmeets : Meets edges e x := ⟨x, hx, Linked.refl edges x⟩
      refine ⟨x, hmeets.mem_vertices, ?_, (pure_concat_iff hmeets).mpr ⟨rfl, h⟩⟩
      rw [hC, component_concat_of_meets hmeets]

theorem spoiled_concat_pure (h : ¬Conflict edges e) : spoiled (edges ++ [e]) = spoiled edges := by
  ext a
  constructor
  · rintro ⟨ha, hpure⟩
    have hmeets : ¬Meets edges e a := fun hm =>
      hpure e.label ((pure_concat_iff hm).mpr ⟨rfl, h⟩)
    have hvertex : a ∈ vertices edges := (mem_vertices_concat.mp ha).resolve_right
      fun hae => hmeets ⟨a, hae, Linked.refl edges a⟩
    exact ⟨hvertex, fun label hp => hpure label ((pure_concat_of_not_meets hmeets).mpr hp)⟩
  · intro ha
    have hmeets : ¬Meets edges e a := by
      rintro ⟨x, hx, hax⟩
      exact h (.inl ⟨x, hx, Linked.spoiled hax ha⟩)
    exact ⟨mem_vertices_concat.mpr (.inl ha.1), fun label hp =>
      ha.2 label ((pure_concat_of_not_meets hmeets).mp hp)⟩

end concat

end Components
