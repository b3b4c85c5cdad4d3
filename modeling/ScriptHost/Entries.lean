/-!
# Entries in the order of their keys' first appearance

A list of keys with values, in which a key is meant to stand once. `Entries.put` changes the value
of a key in its place or adds the key at the end; `Entries.find?` gives the value of a key. The
lemmas say what `put` does to the values (`find?_put_self`, `find?_put_of_ne`) and to the keys
(`keys_put`).
-/

set_option autoImplicit false

namespace ScriptHost

/-- Keys with values, in the order in which the keys first appeared. -/
abbrev Entries (α : Type) := List (String × α)

namespace Entries

variable {α : Type}

/-- The keys in their order. -/
def keys (es : Entries α) : List String := es.map (·.1)

/-- The value of the first entry with a key. -/
def find? (key : String) : Entries α → Option α
  | [] => none
  | (k, v) :: rest => if k = key then some v else find? key rest

/-- Gives a value to a key: in its place when the key is there, at the end when it is not. -/
def put (key : String) (value : α) : Entries α → Entries α
  | [] => [(key, value)]
  | (k, v) :: rest => if k = key then (k, value) :: rest else (k, v) :: put key value rest

/-- Whether a key is there. -/
def contains (key : String) (es : Entries α) : Bool := (find? key es).isSome

/-! ## Values -/

@[simp] theorem find?_put_self (key : String) (value : α) (es : Entries α) :
    find? key (put key value es) = some value := by
  induction es with
  | nil => simp [put, find?]
  | cons e rest ih => by_cases h : e.1 = key <;> simp [put, find?, h, ih]

theorem find?_put_of_ne {key other : String} (h : other ≠ key) (value : α) (es : Entries α) :
    find? other (put key value es) = find? other es := by
  induction es with
  | nil => simp [put, find?, h.symm]
  | cons e rest ih =>
    by_cases hk : e.1 = key
    · simp [put, find?, hk, h.symm]
    · simp [put, find?, hk, ih]

/-- The last value given to a key is the one that counts. -/
@[simp] theorem put_put (key : String) (v w : α) (es : Entries α) :
    put key w (put key v es) = put key w es := by
  induction es with
  | nil => simp [put]
  | cons e rest ih => by_cases h : e.1 = key <;> simp [put, h, ih]

/-! ## Keys -/

@[simp] theorem keys_nil : keys ([] : Entries α) = [] := rfl

@[simp] theorem keys_cons (e : String × α) (rest : Entries α) :
    keys (e :: rest) = e.1 :: keys rest := rfl

theorem find?_isSome_iff {key : String} {es : Entries α} :
    (find? key es).isSome = true ↔ key ∈ keys es := by
  induction es with
  | nil => simp [find?]
  | cons e rest ih =>
    by_cases h : e.1 = key
    · simp [find?, h]
    · simp only [find?, h, if_false, ih, keys_cons, List.mem_cons]
      exact ⟨Or.inr, fun hm => hm.resolve_left fun he => h he.symm⟩

theorem contains_iff {key : String} {es : Entries α} : contains key es = true ↔ key ∈ keys es :=
  find?_isSome_iff

/-- A key that is there keeps its place, and a new one comes last. -/
theorem keys_put (key : String) (value : α) (es : Entries α) :
    keys (put key value es) = if key ∈ keys es then keys es else keys es ++ [key] := by
  induction es with
  | nil => simp [put]
  | cons e rest ih =>
    by_cases h : e.1 = key
    · simp [put, h]
    · have hne : key ≠ e.1 := fun he => h he.symm
      simp only [put, h, if_false, keys_cons, ih, List.mem_cons, hne, false_or]
      split <;> rfl

theorem nodup_keys_put {es : Entries α} (h : (keys es).Nodup) (key : String) (value : α) :
    (keys (put key value es)).Nodup := by
  rw [keys_put]
  split
  · exact h
  · rename_i hk
    refine List.nodup_append.mpr ⟨h, by simp, ?_⟩
    intro a ha b hb
    simp only [List.mem_singleton] at hb
    rintro rfl
    exact hk (hb ▸ ha)

end Entries

end ScriptHost
