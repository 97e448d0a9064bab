/-
  Tables with a remembered order.

  A table is a list of entries, each a key and its value, in
  the order in which the keys were first inserted.  Inserting
  under a present key replaces the value where it stands;
  inserting under a new key appends an entry.

  Key definitions include:
    * `Table`
    * `Table.get?`
    * `Table.contains`
    * `Table.insert`
    * `Table.erase`
    * `Table.keys`
    * `Table.values`
-/

namespace StyleCompanion

/- Entries in insertion order. -/
abbrev Table (α β : Type) :=
  List (α × β)

namespace Table

variable {α β : Type}

/- The keys in insertion order. -/
def keys
    (t : Table α β) : List α :=
  t.map (·.1)

/- The values in insertion order. -/
def values
    (t : Table α β) : List β :=
  t.map (·.2)

variable [DecidableEq α]

/- The value stored under a key. -/
def get?
    (t : Table α β)
    (k : α) : Option β :=
  match t with
  | [] => none
  | (l, v) :: rest =>
      if l = k then some v else get? rest k

/- Whether a key has a value. -/
def contains
    (t : Table α β)
    (k : α) : Bool :=
  (get? t k).isSome

/- Store a value, in place when the key is present. -/
def insert
    (t : Table α β)
    (k : α)
    (v : β) : Table α β :=
  match t with
  | [] => [(k, v)]
  | (l, w) :: rest =>
      if l = k then (k, v) :: rest
      else (l, w) :: insert rest k v

/- Remove every entry of a key. -/
def erase
    (t : Table α β)
    (k : α) : Table α β :=
  t.filter fun e => decide (e.1 ≠ k)

/- Build a table entry by entry; a later entry wins. -/
def ofList
    (es : List (α × β)) : Table α β :=
  es.foldl (fun t e => insert t e.1 e.2) []

----
-- Lookup after an update
----

@[simp] theorem get?_nil
    (k : α) :
    get? ([] : Table α β) k = none := rfl

/- Insertion is seen under its own key and nowhere else. -/
theorem get?_insert
    (t : Table α β)
    (k l : α)
    (v : β) :
    get? (insert t k v) l =
      if k = l then some v else get? t l := by
  induction t with
  | nil => simp [insert, get?]
  | cons e rest ih =>
      obtain ⟨m, w⟩ := e
      by_cases hmk : m = k
      · subst hmk
        by_cases hml : m = l <;>
          simp [insert, get?, hml]
      · by_cases hml : m = l
        · subst hml
          have hkm : ¬ k = m := fun h => hmk h.symm
          simp [insert, get?, hmk, hkm]
        · simp [insert, get?, hmk, hml, ih]

/- Erasure is seen under its own key and nowhere else. -/
theorem get?_erase
    (t : Table α β)
    (k l : α) :
    get? (erase t k) l =
      if k = l then none else get? t l := by
  induction t with
  | nil => simp [erase]
  | cons e rest ih =>
      obtain ⟨m, w⟩ := e
      unfold erase at ih ⊢
      by_cases hmk : m = k
      · subst hmk
        by_cases hml : m = l
        · simpa [hml] using ih
        · simpa [get?, hml] using ih
      · by_cases hml : m = l
        · subst hml
          have hkm : ¬ k = m := fun h => hmk h.symm
          simp [get?, hmk, hkm]
        · simpa [get?, hmk, hml] using ih

end Table

end StyleCompanion
