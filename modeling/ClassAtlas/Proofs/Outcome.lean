import ClassAtlas.Proofs.Edges
import ClassAtlas.Proofs.Guarding
import ClassAtlas.Proofs.HierarchyCycle

/-! A snapshot is refused exactly if an id is declared twice or its hierarchy has a cycle, and nothing else stops
the building of a model: with every look-up guarded it comes to the same end. -/

namespace ClassAtlas

open ClassModel

/-- The class of the declaration stands below `p`: it extends `p`, or realizes it and is an interface neither by
its kind nor by its modifiers. -/
def ClassDeclaration.Extends (d : ClassDeclaration) (p : String) : Prop :=
  p ≠ d.id ∧ (d.superClass = some p ∨ ⟨.superClass, p⟩ ∈ d.relations ∨
    ((d.kind ≠ .interface ∧ d.modifiers.contains .interface = false) ∧
      (p ∈ d.interfaces ∨ ⟨.superInterface, p⟩ ∈ d.relations)))

/-- The hierarchy that a snapshot declares, on ids. -/
def Snapshot.Extends (s : Snapshot) (p c : String) : Prop := ∃ d ∈ s.classes, d.id = c ∧ d.Extends p

namespace ClassDeclaration

variable {d : ClassDeclaration} {p : String}

theorem isInterface_eq_false_iff :
    d.isInterface = false ↔ d.kind ≠ .interface ∧ d.modifiers.contains .interface = false := by
  simp [isInterface]

theorem extends_iff : d.Extends p ↔ p ≠ d.id ∧
    (d.Names p .superClass ∨ (d.isInterface = false ∧ d.Names p .superInterface)) := by
  rw [isInterface_eq_false_iff]
  exact and_congr_right fun _ => or_assoc.symm

theorem Extends.mem_references (h : d.Extends p) : ∃ r, ⟨r, p⟩ ∈ d.references := by
  rcases h.2 with hs | hr | ⟨-, hi | hr⟩
  · exact ⟨.superClass, ClassDeclaration.mem_references.2 (Or.inl ⟨rfl, hs⟩)⟩
  · exact ⟨.superClass, ClassDeclaration.mem_references.2 (Or.inr (Or.inr hr))⟩
  · exact ⟨.superInterface, ClassDeclaration.mem_references.2 (Or.inr (Or.inl ⟨rfl, hi⟩))⟩
  · exact ⟨.superInterface, ClassDeclaration.mem_references.2 (Or.inr (Or.inr hr))⟩

end ClassDeclaration

namespace Assembled

variable {s : Snapshot} {m : ClassModel} {h p c : Handle}

/-- A class is listed below another one exactly if its declaration says so. -/
theorem below_iff (hm : Assembled s m) :
    m.Below p c ↔ p < m.size ∧ ∃ d, s.classes[c]? = some d ∧ d.Extends (m.classAt p).id := by
  unfold Below subclasses
  rw [hm.mem_subclass]
  have hid : ∀ d, s.classes[c]? = some d → p < m.size → (c ≠ p ↔ (m.classAt p).id ≠ d.id) := by
    intro d hd hp
    refine not_congr ⟨fun e => e ▸ hm.id_eq hd, fun e => ?_⟩
    exact hm.wellFormed.unique c p (hm.declared c d hd).1 hp ((hm.id_eq hd).trans e.symm)
  constructor
  · intro hbelow
    obtain ⟨d, hd⟩ : ∃ d, s.classes[c]? = some d :=
      hbelow.elim hm.getElem?_of_mem_outbound fun hb => hm.getElem?_of_mem_outbound hb.2
    rw [hm.mem_outbound_declared hd, hm.mem_outbound_declared hd, hm.isInterface_eq hd] at hbelow
    obtain ⟨hp, hne⟩ : p < m.size ∧ c ≠ p :=
      hbelow.elim (fun hb => ⟨hb.1, hb.2.1⟩) fun hb => ⟨hb.2.1, hb.2.2.1⟩
    refine ⟨hp, d, hd, ClassDeclaration.extends_iff.2 ⟨(hid d hd hp).1 hne, ?_⟩⟩
    exact hbelow.imp (·.2.2) fun hb => ⟨hb.1, hb.2.2.2⟩
  · rintro ⟨hp, d, hd, hext⟩
    obtain ⟨hne, hnames⟩ := ClassDeclaration.extends_iff.1 hext
    have hcp := (hid d hd hp).2 hne
    rw [hm.mem_outbound_declared hd, hm.mem_outbound_declared hd, hm.isInterface_eq hd]
    exact hnames.imp (fun hn => ⟨hp, hcp, hn⟩) fun hn => ⟨hn.1, hp, hcp, hn.2⟩

theorem extends_of_below (hm : Assembled s m) (hb : m.Below p c) :
    s.Extends (m.classAt p).id (m.classAt c).id := by
  obtain ⟨-, d, hd, hext⟩ := hm.below_iff.1 hb
  exact ⟨d, List.mem_of_getElem? hd, (hm.id_eq hd).symm, hext⟩

/-- The ids that a hierarchy relates have classes. -/
theorem below_of_extends (hm : Assembled s m) {a b : String} (hab : s.Extends a b) :
    ∃ p c, m.handle? a = some p ∧ m.handle? b = some c ∧ m.Below p c := by
  obtain ⟨d, hd, rfl, hext⟩ := hab
  obtain ⟨c, hc⟩ := List.getElem?_of_mem hd
  obtain ⟨r, hr⟩ := hext.mem_references
  obtain ⟨p, hp⟩ := hm.handle?_of_mem hd hr
  obtain ⟨hpm, hpid⟩ := (handle?_eq_some_iff hm.wellFormed).1 hp
  refine ⟨p, c, hp, ?_, hm.below_iff.2 ⟨hpm, d, hc, hpid.symm ▸ hext⟩⟩
  exact (handle?_eq_some_iff hm.wellFormed).2 ⟨(hm.declared c d hc).1, hm.id_eq hc⟩

/-- Cycles of handles are cycles of ids. -/
theorem cyclic_iff (hm : Assembled s m) :
    (∃ h, Relation.TransGen m.Below h h) ↔ ∃ id, Relation.TransGen s.Extends id id := by
  constructor
  · rintro ⟨h, hh⟩
    exact ⟨(m.classAt h).id, hh.lift (fun x => (m.classAt x).id) fun _ _ => hm.extends_of_below⟩
  · rintro ⟨id, hid⟩
    refine ⟨(m.handle? id).getD 0, hid.lift (fun a => (m.handle? a).getD 0) fun a b hab => ?_⟩
    obtain ⟨p, c, hp, hc, hbelow⟩ := hm.below_of_extends hab
    change m.Below ((m.handle? a).getD 0) ((m.handle? b).getD 0)
    rw [hp, hc]
    exact hbelow

end Assembled

namespace Snapshot

variable {policy : Policy} {s : Snapshot}

/-- With distinct ids a model is assembled, and only a cycle keeps it from being returned. -/
theorem build_of_nodup (policy : Policy) (hnodup : (s.classes.map (·.id)).Nodup) :
    ((∃ r, s.build policy = .ok r) ∧ ∀ id, ¬ Relation.TransGen s.Extends id id) ∨
      ((∃ c, s.build policy = .error (.cyclic c)) ∧ ∃ id, Relation.TransGen s.Extends id id) := by
  obtain ⟨p, hp, -, hm⟩ := Build.assemble_ok policy hnodup
  have hnone := superClassCycle?_eq_none_iff hm.wellFormed
  rw [← not_exists, hm.cyclic_iff] at hnone
  rcases validateHierarchy_cases p.model with ⟨hc, hv⟩ | ⟨hc, c, hv⟩
  · left
    refine ⟨⟨(p.model, p.stats), ?_⟩, not_exists.1 (hnone.1 hc)⟩
    simp only [build, hp, bind, Except.bind, hv]
  · right
    refine ⟨⟨c, ?_⟩, not_not.1 fun hno => hc (hnone.2 hno)⟩
    simp only [build, hp, bind, Except.bind, hv]

theorem build_of_duplicate (policy : Policy) (h : ¬ (s.classes.map (·.id)).Nodup) :
    ∃ id r, s.build policy = .error (.duplicateClass id r) := by
  obtain ⟨id, r, he⟩ := Build.assemble_duplicate policy h
  exact ⟨id, r, by simp [build, he, bind, Except.bind]⟩

/-- A built model is one that a run of accepted operations leads to, so it has what all runs have. -/
theorem exists_run_of_build {m : ClassModel} {stats : BuildStats} (h : s.build policy = .ok (m, stats)) :
    ∃ ops, ((empty policy).run ops).1 = m ∧ ∀ reply ∈ ((empty policy).run ops).2, reply.isAccepted = true := by
  by_cases hnodup : (s.classes.map (·.id)).Nodup
  · obtain ⟨p, hp, hcalm, -⟩ := Build.assemble_ok policy hnodup
    simp only [build, hp, bind, Except.bind] at h
    split at h <;> cases h
    exact hcalm.run
  · obtain ⟨id, r, he⟩ := build_of_duplicate policy hnodup
    rw [he] at h
    cases h

/-- Building fails for a duplicate id or for a cycle, and by none but these two failures. No part of it looks up a
class that is not there, is a violation or takes the count of classes below zero: guarded against all that, building
comes to what it comes to. -/
theorem build_outcome (policy : Policy) (s : Snapshot) :
    ((∃ f, s.build policy = .error f) ↔
      ¬ (s.classes.map (·.id)).Nodup ∨ ∃ id, Relation.TransGen s.Extends id id) ∧
    ((∃ r, s.build policy = .ok r) ↔
      (s.classes.map (·.id)).Nodup ∧ ∀ id, ¬ Relation.TransGen s.Extends id id) ∧
    (∀ f, s.build policy = .error f → (∃ id r, f = .duplicateClass id r) ∨ ∃ c, f = .cyclic c) ∧
    Guarded.build policy s = some (s.build policy) := by
  have hguarded := Guarded.build_eq policy s
  by_cases hnodup : (s.classes.map (·.id)).Nodup
  · rcases build_of_nodup policy hnodup with ⟨⟨r, hr⟩, hno⟩ | ⟨⟨c, hc⟩, hcycle⟩
    · rw [hr] at hguarded ⊢
      exact ⟨by simp [hnodup, hno], by simp [hnodup, hno], by simp, hguarded⟩
    · rw [hc] at hguarded ⊢
      exact ⟨by simp [hcycle], by simpa [hnodup] using hcycle, by simp, hguarded⟩
  · obtain ⟨id, r, he⟩ := build_of_duplicate policy hnodup
    rw [he] at hguarded ⊢
    exact ⟨by simp [hnodup], by simp [hnodup], by simp, hguarded⟩

end Snapshot

end ClassAtlas
