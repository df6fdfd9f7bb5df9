import ClassAtlas.Element.Basic

/-!
Ordering policies. A policy compares attributes, and orders the members of a class as well as classes.
Strings compare by code point; among the two named policies, elements that compare equal agree in every
attribute that the policy looks at.
-/

namespace ClassAtlas

structure Policy where
  /-- Short name, as health reports give it. -/
  name : String
  compare : Attributes → Attributes → Ordering

namespace Policy

/-- By kind, then visibility, then name; the id parts overloads. -/
def byKind : Policy where
  name := "kind"
  compare a b :=
    (Ord.compare (rank a.kind) (rank b.kind)).then <|
      (Ord.compare (rank a.visibility) (rank b.visibility)).then <|
        (Ord.compare a.name b.name).then (Ord.compare a.id b.id)

/-- By name alone; the id parts equal names. -/
def byName : Policy where
  name := "name"
  compare a b := (Ord.compare a.name b.name).then (Ord.compare a.id b.id)

structure Unknown where
  name : String

def Unknown.message (u : Unknown) : String :=
  "Unknown ordering: " ++ u.name ++ " (expected kind or name)"

def named (name : String) : Except Unknown Policy :=
  if name = byKind.name then .ok byKind
  else if name = byName.name then .ok byName
  else .error ⟨name⟩

end Policy

end ClassAtlas
