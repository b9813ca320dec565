import Polyglot.Proofs.Value.FiniteMap

/-!
# The types that values declare

Pairs and records remember a type.  `Value.EveryDeclared` says that all types that a value remembers,
in all its parts, have a property.
-/

namespace Polyglot.Value

/-- Whether each type that a value declares in any of its parts has a property. -/
inductive EveryDeclared (P : Json → Prop) : Value → Prop
  | text (s : String) : EveryDeclared P (.text s)
  | reference (id : String) : EveryDeclared P (.reference id)
  | flag (b : Bool) : EveryDeclared P (.flag b)
  | unit : EveryDeclared P .unit
  | list {items : List Value} (h : ∀ v ∈ items, EveryDeclared P v) : EveryDeclared P (.list items)
  | pair {first second : Value} {declared : Option Json} (h1 : EveryDeclared P first)
    (h2 : EveryDeclared P second) (h : ∀ type, declared = some type → P type) :
    EveryDeclared P (.pair first second declared)
  | map {entries : List (Value × Value)}
    (hk : ∀ e ∈ entries, EveryDeclared P e.1) (hv : ∀ e ∈ entries, EveryDeclared P e.2) :
    EveryDeclared P (.map entries)
  | record {declared : Option Json} {fields : List (String × Value)}
    (h : ∀ type, declared = some type → P type) (hf : ∀ f ∈ fields, EveryDeclared P f.2) :
    EveryDeclared P (.record declared fields)

variable {P : Json → Prop}

theorem EveryDeclared.mono {Q : Json → Prop} {value : Value} (h : value.EveryDeclared P)
    (hPQ : ∀ type, P type → Q type) : value.EveryDeclared Q := by
  induction h with
  | text s => exact .text s
  | reference id => exact .reference id
  | flag b => exact .flag b
  | unit => exact .unit
  | list _ ih => exact .list ih
  | pair _ _ h ih1 ih2 => exact .pair ih1 ih2 fun type ht => hPQ type (h type ht)
  | map _ _ ihk ihv => exact .map ihk ihv
  | record h _ ih => exact .record (fun type ht => hPQ type (h type ht)) ih

/-- Whether both the key and the value of each entry declare only such types. -/
def Entries.EveryDeclared (P : Json → Prop) (entries : Entries) : Prop :=
  ∀ e ∈ entries, e.1.EveryDeclared P ∧ e.2.EveryDeclared P

theorem Entries.EveryDeclared.insert {entries : Entries} (h : entries.EveryDeclared P)
    {key value : Value} (hk : key.EveryDeclared P) (hv : value.EveryDeclared P) :
    (entries.insert key value).EveryDeclared P := by
  rw [Entries.insert_eq]
  exact Association.forall_insert h hk hv

theorem Entries.EveryDeclared.ofList {entries : List (Value × Value)}
    (h : Entries.EveryDeclared P entries) : (Entries.ofList entries).EveryDeclared P :=
  Entries.forall_ofList h

end Polyglot.Value
