import ClassAtlas.Model.Cycle
import ClassAtlas.Proofs.WellFormed
import ClassAtlas.Proofs.CycleSearch

/-! The hierarchy of a model is cyclic exactly if the search reports a class, and the class it reports lies
on a cycle itself. -/

namespace ClassAtlas

namespace ClassModel

/-- The class `c` is listed below `p`. -/
def Below (m : ClassModel) (p c : Handle) : Prop := c ∈ m.subclasses p

variable {m : ClassModel}

theorem hierarchyGraph_adj (hm : WellFormed m) {p c : Handle} : m.hierarchyGraph.Adj p c ↔ m.Below p c := by
  simp only [EdgeGraph.Adj, hierarchyGraph, List.mem_flatMap, List.mem_map, Prod.mk.injEq, Below,
    subclasses]
  constructor
  · rintro ⟨n, hn, x, hx, rfl, rfl⟩
    obtain ⟨h, hh, rfl⟩ := mem_classes.1 hn
    rwa [hm.numbered h hh]
  · intro hc
    have hp := lt_of_mem_targets hc
    exact ⟨m.classAt p, mem_classes.2 ⟨p, hp, rfl⟩, c, hc, hm.numbered p hp, rfl⟩

theorem hierarchyGraph_simple (hm : WellFormed m) : m.hierarchyGraph.Simple where
  source he := lt_of_mem_targets ((hierarchyGraph_adj hm).1 he)
  target he := (hm.targets _ _ _ _ ((hierarchyGraph_adj hm).1 he)).1
  loopless he := (hm.targets _ _ _ _ ((hierarchyGraph_adj hm).1 he)).2.symm

theorem hierarchyGraph_adj_eq (hm : WellFormed m) : m.hierarchyGraph.Adj = m.Below := by
  funext p c
  exact propext (hierarchyGraph_adj hm)

theorem superClassCycle?_eq_none_iff (hm : WellFormed m) :
    m.superClassCycle? = none ↔ ∀ h, ¬ Relation.TransGen m.Below h h := by
  rw [← hierarchyGraph_adj_eq hm]
  exact EdgeGraph.cycle?_eq_none_iff (hierarchyGraph_simple hm)

theorem superClassCycle?_lt (hm : WellFormed m) {c : Handle} (hc : m.superClassCycle? = some c) : c < m.size := by
  obtain ⟨b, hb, -⟩ := Relation.TransGen.head'_iff.1 (EdgeGraph.cycle?_sound (hierarchyGraph_simple hm) hc)
  exact (hierarchyGraph_simple hm).source hb

theorem validateHierarchy_cases (m : ClassModel) :
    (m.superClassCycle? = none ∧ m.validateHierarchy = .ok ()) ∨
      (m.superClassCycle? ≠ none ∧ ∃ c, m.validateHierarchy = .error c) := by
  unfold validateHierarchy
  cases m.superClassCycle? with
  | none => exact Or.inl ⟨rfl, rfl⟩
  | some h => exact Or.inr ⟨by simp, _, rfl⟩

/-- After any run, violations included, the search reports nothing exactly if no class is below itself, and
a class that it reports is. -/
theorem superClassCycle?_run (policy : Policy) (ops : List Operation) :
    (((empty policy).run ops).1.superClassCycle? = none ↔
      ∀ h, ¬ Relation.TransGen ((empty policy).run ops).1.Below h h) ∧
    ∀ c, ((empty policy).run ops).1.superClassCycle? = some c →
      Relation.TransGen ((empty policy).run ops).1.Below c c := by
  have hm := run_wellFormed policy ops
  refine ⟨superClassCycle?_eq_none_iff hm, fun c hc => ?_⟩
  rw [← hierarchyGraph_adj_eq hm]
  exact EdgeGraph.cycle?_sound (hierarchyGraph_simple hm) hc

end ClassModel

end ClassAtlas
