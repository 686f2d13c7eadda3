import Mathlib.Data.List.Basic

/-!
# JSON values

A JSON value is a tree whose inner nodes are arrays and objects.  `Json.objects` lists the objects of
a value in the order in which a depth-first walk enters them, and `mem_objects_iff` says that these
are the objects that occur in it at any depth.  `Json.induction` is the induction over values, with
one case for each kind.
-/

set_option autoImplicit false

namespace TradingEdge.Library

variable {K : Type}

/-- A value, with numbers in `K`.  An object lists its members in their order. -/
inductive Json (K : Type) where
  | null
  | bool (b : Bool)
  | number (x : K)
  | string (s : String)
  | array (items : List (Json K))
  | object (members : List (String × Json K))

namespace Json

/-- The members of an object. -/
abbrev Members (K : Type) : Type := List (String × Json K)

/-- An object with these members occurs in a value: it is the value, or it occurs in one of the items
or members of it. -/
inductive Within (o : Members K) : Json K → Prop
  | self : Within o (.object o)
  | item {items : List (Json K)} {v : Json K} (hv : v ∈ items) (h : Within o v) :
      Within o (.array items)
  | member {members : Members K} {m : String × Json K} (hm : m ∈ members) (h : Within o m.2) :
      Within o (.object members)

mutual

/-- The objects of a value, each before those that occur in it. -/
def objects : Json K → List (Members K)
  | .null => []
  | .bool _ => []
  | .number _ => []
  | .string _ => []
  | .array items => objectsIn items
  | .object members => members :: objectsOf members

def objectsIn : List (Json K) → List (Members K)
  | [] => []
  | v :: rest => v.objects ++ objectsIn rest

def objectsOf : List (String × Json K) → List (Members K)
  | [] => []
  | (_, v) :: rest => v.objects ++ objectsOf rest

end

/-- What holds of a value if it holds of its items and of the values of its members holds of all. -/
@[elab_as_elim]
theorem induction {motive : Json K → Prop} (null : motive .null) (bool : ∀ b, motive (.bool b))
    (number : ∀ x, motive (.number x)) (string : ∀ s, motive (.string s))
    (array : ∀ items, (∀ v ∈ items, motive v) → motive (.array items))
    (object : ∀ members : Members K, (∀ m ∈ members, motive m.2) → motive (.object members))
    (v : Json K) : motive v := by
  refine @Json.rec K motive (fun items => ∀ v ∈ items, motive v)
    (fun members => ∀ m ∈ members, motive m.2) (fun m => motive m.2) null bool number string array
    object ?_ ?_ ?_ ?_ (fun key v hv => hv) v
  · exact fun v hv => absurd hv List.not_mem_nil
  · exact fun first rest hfirst hrest => List.forall_mem_cons.mpr ⟨hfirst, hrest⟩
  · exact fun m hm => absurd hm List.not_mem_nil
  · exact fun first rest hfirst hrest => List.forall_mem_cons.mpr ⟨hfirst, hrest⟩

/-- The objects in an array are those of its items. -/
theorem objectsIn_eq (items : List (Json K)) : objectsIn items = items.flatMap objects := by
  induction items with
  | nil => rfl
  | cons v rest ih => rw [objectsIn, ih, List.flatMap_cons]

/-- The objects in an object are those of its members. -/
theorem objectsOf_eq (members : Members K) :
    objectsOf members = members.flatMap fun m => m.2.objects := by
  induction members with
  | nil => rfl
  | cons m rest ih =>
    obtain ⟨key, v⟩ := m
    rw [objectsOf, ih, List.flatMap_cons]

/-- The listed objects are those that occur. -/
theorem mem_objects_iff (v : Json K) (o : Members K) : o ∈ v.objects ↔ Within o v := by
  induction v using Json.induction with
  | null => exact ⟨fun h => absurd h List.not_mem_nil, fun h => nomatch h⟩
  | bool b => exact ⟨fun h => absurd h List.not_mem_nil, fun h => nomatch h⟩
  | number x => exact ⟨fun h => absurd h List.not_mem_nil, fun h => nomatch h⟩
  | string s => exact ⟨fun h => absurd h List.not_mem_nil, fun h => nomatch h⟩
  | array items ih =>
    rw [objects, objectsIn_eq, List.mem_flatMap]
    constructor
    · rintro ⟨v, hv, ho⟩
      exact .item hv ((ih v hv).mp ho)
    · intro h
      cases h with
      | item hv ho => exact ⟨_, hv, (ih _ hv).mpr ho⟩
  | object members ih =>
    rw [objects, objectsOf_eq, List.mem_cons, List.mem_flatMap]
    constructor
    · rintro (hself | ⟨m, hm, ho⟩)
      · rw [hself]
        exact .self
      · exact .member hm ((ih m hm).mp ho)
    · intro h
      cases h with
      | self => exact .inl rfl
      | member hm ho => exact .inr ⟨_, hm, (ih _ hm).mpr ho⟩

end Json

end TradingEdge.Library
