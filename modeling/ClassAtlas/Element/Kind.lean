import ClassAtlas.Enumeration
import ClassAtlas.Style.Color

/-!
The registries that describe a language element: its kind, its visibility and its modifiers. Each is
listed in the order in which elements are sorted and written.
-/

namespace ClassAtlas

/-- Structural role of an element: the five class-like kinds, then super types, members and the details
of members. -/
inductive ElementKind
  | classType
  | interface
  | enum
  | annotationType
  | throwable
  | extends
  | implements
  | constants
  | fields
  | properties
  | constructors
  | methods
  | annotations
  | parameters
  | throws
deriving DecidableEq

namespace ElementKind

instance : Enumeration ElementKind where
  all := [.classType, .interface, .enum, .annotationType, .throwable, .extends, .implements, .constants,
    .fields, .properties, .constructors, .methods, .annotations, .parameters, .throws]
  complete k := by cases k <;> decide
  nodup := by decide

/-- Kinds that every class has a list for, possibly empty, once its members are finished. -/
def memberKinds : List ElementKind :=
  [.extends, .implements, .constants, .fields, .properties, .constructors, .methods]

/-- Member kinds with a section in a UML table, in the order of the sections. -/
def umlKinds : List ElementKind := [.constants, .fields, .properties, .constructors, .methods]

def name : ElementKind → String
  | .classType => "CLASS"
  | .interface => "INTERFACE"
  | .enum => "ENUM"
  | .annotationType => "ANNOTATION_TYPE"
  | .throwable => "THROWABLE"
  | .extends => "EXTENDS"
  | .implements => "IMPLEMENTS"
  | .constants => "CONSTANTS"
  | .fields => "FIELDS"
  | .properties => "PROPERTIES"
  | .constructors => "CONSTRUCTORS"
  | .methods => "METHODS"
  | .annotations => "ANNOTATIONS"
  | .parameters => "PARAMETERS"
  | .throws => "THROWS"

def color : ElementKind → Rgb
  | .classType => ⟨0xFFF2CC⟩
  | .interface => ⟨0xCCFFCC⟩
  | .enum => ⟨0xCCCCFF⟩
  | .annotationType => ⟨0xFECCFF⟩
  | .throwable => ⟨0xFF9F80⟩
  | .extends => ⟨0x4F4F4F⟩
  | .implements => ⟨0xA9A9A9⟩
  | .constants => ⟨0xFF6F60⟩
  | .fields => ⟨0xA0C9E8⟩
  | .properties => ⟨0x4A72A1⟩
  | .constructors => ⟨0xFFA500⟩
  | .methods => ⟨0xFF00FF⟩
  | .annotations => ⟨0xFECCFF⟩
  | .parameters => ⟨0x008080⟩
  | .throws => ⟨0xA90000⟩

def isClassLike : ElementKind → Bool
  | .classType | .interface | .enum | .annotationType | .throwable => true
  | _ => false

/-- A class-like kind is drawn as its initial, every other kind as a glyph. -/
def symbol : ElementKind → Char
  | .classType => 'C'
  | .interface => 'I'
  | .enum => 'E'
  | .annotationType => 'A'
  | .throwable => 'T'
  | .extends | .implements => '▲'
  | .constants | .fields | .properties => '■'
  | .constructors | .methods => '♦'
  | .annotations | .parameters | .throws => '●'

end ElementKind

inductive Visibility
  | publicAccess
  | protectedAccess
  | packageAccess
  | privateAccess
  | localAccess
deriving DecidableEq

namespace Visibility

instance : Enumeration Visibility where
  all := [.publicAccess, .protectedAccess, .packageAccess, .privateAccess, .localAccess]
  complete k := by cases k <;> decide
  nodup := by decide

def name : Visibility → String
  | .publicAccess => "PUBLIC"
  | .protectedAccess => "PROTECTED"
  | .packageAccess => "PACKAGE"
  | .privateAccess => "PRIVATE"
  | .localAccess => "LOCAL"

/-- UML symbol; local elements have none. -/
def symbol : Visibility → Option Char
  | .publicAccess => some '+'
  | .protectedAccess => some '#'
  | .packageAccess => some '~'
  | .privateAccess => some '-'
  | .localAccess => none

end Visibility

inductive Modifier
  | publicAccess
  | protectedAccess
  | privateAccess
  | abstract
  | static
  | final
  | transient
  | volatile
  | synchronized
  | native
  | strict
  | readOnly
  | interface
  | enum
  | annotationType
  | record
  | sealed
  | throwable
  | localClass
  | memberClass
  | synthetic
  | bridge
  | default
  | implicit
  | varArgs
deriving DecidableEq

namespace Modifier

instance : Enumeration Modifier where
  all := [.publicAccess, .protectedAccess, .privateAccess, .abstract, .static, .final, .transient, .volatile,
    .synchronized, .native, .strict, .readOnly, .interface, .enum, .annotationType, .record, .sealed,
    .throwable, .localClass, .memberClass, .synthetic, .bridge, .default, .implicit, .varArgs]
  complete k := by cases k <;> decide
  nodup := by decide

def name : Modifier → String
  | .publicAccess => "PUBLIC"
  | .protectedAccess => "PROTECTED"
  | .privateAccess => "PRIVATE"
  | .abstract => "ABSTRACT"
  | .static => "STATIC"
  | .final => "FINAL"
  | .transient => "TRANSIENT"
  | .volatile => "VOLATILE"
  | .synchronized => "SYNCHRONIZED"
  | .native => "NATIVE"
  | .strict => "STRICT"
  | .readOnly => "READ_ONLY"
  | .interface => "INTERFACE"
  | .enum => "ENUM"
  | .annotationType => "ANNOTATION"
  | .record => "RECORD"
  | .sealed => "SEALED"
  | .throwable => "THROWABLE"
  | .localClass => "LOCAL_CLASS"
  | .memberClass => "MEMBER_CLASS"
  | .synthetic => "SYNTHETIC"
  | .bridge => "BRIDGE"
  | .default => "DEFAULT"
  | .implicit => "IMPLICIT"
  | .varArgs => "VAR_ARGS"

def displayName : Modifier → String
  | .publicAccess => "public"
  | .protectedAccess => "protected"
  | .privateAccess => "private"
  | .abstract => "abstract"
  | .static => "static"
  | .final => "final"
  | .transient => "transient"
  | .volatile => "volatile"
  | .synchronized => "synchronized"
  | .native => "native"
  | .strict => "strict"
  | .readOnly => "readOnly"
  | .interface => "interface"
  | .enum => "enum"
  | .annotationType => "annotation"
  | .record => "record"
  | .sealed => "sealed"
  | .throwable => "throwable"
  | .localClass => "localClass"
  | .memberClass => "memberClass"
  | .synthetic => "synthetic"
  | .bridge => "bridge"
  | .default => "default"
  | .implicit => "implicit"
  | .varArgs => "varArgs"

def isVisibility : Modifier → Bool
  | .publicAccess | .protectedAccess | .privateAccess => true
  | _ => false

/-- Modifiers written as stereotypes. Visibility has a symbol of its own, and abstract and static show
in the style of the text. -/
def isStereotype (m : Modifier) : Bool := !m.isVisibility && m != .abstract && m != .static

end Modifier

/-- A set of modifiers. -/
structure ModifierSet where
  flags : EnumMap Modifier Bool
deriving DecidableEq

namespace ModifierSet

def empty : ModifierSet := ⟨.ofFn fun _ => false⟩

def contains (s : ModifierSet) (m : Modifier) : Bool := s.flags.get m

def insert (s : ModifierSet) (m : Modifier) : ModifierSet := ⟨s.flags.set m true⟩

def insertAll (s : ModifierSet) (ms : List Modifier) : ModifierSet := ms.foldl insert s

def ofList (ms : List Modifier) : ModifierSet := empty.insertAll ms

/-- The modifiers of the set, each once, in the order of the registry. -/
def toList (s : ModifierSet) : List Modifier := (every Modifier).filter s.contains

@[simp] theorem contains_empty (m : Modifier) : empty.contains m = false := by simp [empty, contains]

theorem contains_insert (s : ModifierSet) (m n : Modifier) :
    (s.insert m).contains n = (n = m || s.contains n) := by
  by_cases h : n = m <;> simp [insert, contains, EnumMap.get_set, h]

theorem contains_insertAll (s : ModifierSet) (ms : List Modifier) (n : Modifier) :
    (s.insertAll ms).contains n = (ms.contains n || s.contains n) := by
  induction ms generalizing s with
  | nil => simp [insertAll]
  | cons m ms ih =>
    have := ih (s.insert m)
    simp only [insertAll] at this ⊢
    simp only [List.foldl_cons, this, contains_insert, List.contains_cons, Bool.or_assoc]
    by_cases h : n = m <;> simp [h]

theorem ext_contains {s t : ModifierSet} (h : ∀ m, s.contains m = t.contains m) : s = t := by
  cases s; cases t
  exact congrArg ModifierSet.mk (EnumMap.ext_get h)

/-- A set is rebuilt from its listing. -/
theorem ofList_toList (s : ModifierSet) : ofList s.toList = s := by
  refine ext_contains fun m => ?_
  have hm : (s.toList.contains m) = s.contains m := by
    rw [Bool.eq_iff_iff, List.contains_iff_mem]
    simp [toList, mem_every]
  rw [ofList, contains_insertAll, hm, contains_empty, Bool.or_false]

end ModifierSet

end ClassAtlas
