import ScriptHost.Value.Convert

/-!
# Conversion to values and back

Host data is written as a value and read back. What is read back is the data that was written,
unless null has come to stand for two things: an optional writes its absence as null, so what it
holds must never be written as null or undefined itself (`Shape.IsUnambiguous`). Data that was read
from a value is never of that kind, because an optional takes null and undefined for absence before
it looks any further.

Main statement: exactly the unambiguous shapes read back all that is written, and every shape reads
back what it has read from a value before (`Shape.read_write_iff`).
-/

set_option autoImplicit false

namespace ScriptHost.Shape

/-- Whether host data of a shape can be written as null or undefined. -/
def mayBeNothing : Shape → Bool
  | value => true
  | option _ => true
  | _ => false

/-- Nowhere does an optional hold an optional or a value of any kind, so null stands for the absence
of one thing only. -/
def IsUnambiguous : Shape → Prop
  | list item => item.IsUnambiguous
  | option item => item.mayBeNothing = false ∧ item.IsUnambiguous
  | _ => True

/-! ## Reading lists and optionals -/

/-- Items are read one by one. -/
theorem mapM_read_eq_ok_iff {item : Shape} {vs : List Value} {xs : List item.Carrier} :
    vs.mapM item.read = .ok xs ↔ vs.map item.read = xs.map .ok := by
  induction vs generalizing xs with
  | nil =>
      cases xs with
      | nil => exact ⟨fun _ => rfl, fun _ => rfl⟩
      | cons x xs => exact ⟨fun h => (by cases h), fun h => (by cases h)⟩
  | cons v vs ih =>
      rw [List.mapM_cons, List.map_cons]
      constructor
      · intro h
        cases hfirst : item.read v with
        | error m =>
            rw [hfirst] at h
            cases h
        | ok x =>
            cases hrest : vs.mapM item.read with
            | error m =>
                rw [hfirst, hrest] at h
                cases h
            | ok ys =>
                rw [hfirst, hrest] at h
                cases h
                rw [ih.mp hrest]
                rfl
      · intro h
        cases xs with
        | nil => cases h
        | cons x xs =>
            obtain ⟨hfirst, hrest⟩ := List.cons.inj h
            rw [hfirst, ih.mpr hrest]
            rfl

theorem read_list_array_eq_ok_iff {item : Shape} {vs : List Value} {xs : List item.Carrier} :
    (list item).read (.array vs) = .ok xs ↔ vs.map item.read = xs.map .ok :=
  mapM_read_eq_ok_iff

/-- Only arrays are read as lists. -/
theorem exists_array_of_read_list {item : Shape} {v : Value} {xs : List item.Carrier}
    (h : (list item).read v = .ok xs) : ∃ vs, v = .array vs := by
  cases v with
  | array vs => exact ⟨vs, rfl⟩
  | _ => cases h

/-- An optional is read as absent from null and undefined alone. -/
theorem read_option_eq_ok_none_iff {item : Shape} {v : Value} :
    (option item).read v = .ok none ↔ v.isNothing = true := by
  rw [read]
  split
  · rename_i hv
    exact ⟨fun _ => hv, fun _ => rfl⟩
  · rename_i hv
    refine ⟨fun h => ?_, fun h => absurd h hv⟩
    cases hread : item.read v with
    | error m =>
        rw [hread] at h
        cases h
    | ok x =>
        rw [hread] at h
        cases h

/-- An optional is read as present from what is not null or undefined and can be read itself. -/
theorem read_option_eq_ok_some_iff {item : Shape} {v : Value} {x : item.Carrier} :
    (option item).read v = .ok (some x) ↔ v.isNothing = false ∧ item.read v = .ok x := by
  rw [read]
  split
  · rename_i hv
    rw [hv]
    exact ⟨fun h => (by cases h), fun h => (by cases h.1)⟩
  · rename_i hv
    rw [Bool.eq_false_iff.mpr hv]
    cases item.read v with
    | error m => exact ⟨fun h => (by cases h), fun h => (by cases h.2)⟩
    | ok y =>
        constructor
        · intro h
          cases h
          exact ⟨rfl, rfl⟩
        · rintro ⟨_, h⟩
          cases h
          rfl

/-! ## What is written as null or undefined -/

theorem isNothing_write_of_mayBeNothing {t : Shape} (h : t.mayBeNothing = false) (x : t.Carrier) :
    (t.write x).isNothing = false := by
  cases t with
  | value => cases h
  | option item => cases h
  | _ => rfl

/-- What was read from a value other than null and undefined is not written as one of them. -/
theorem isNothing_write_of_read {t : Shape} {v : Value} {x : t.Carrier} (hv : v.isNothing = false)
    (h : t.read v = .ok x) : (t.write x).isNothing = false := by
  induction t with
  | value =>
      cases h
      exact hv
  | option item ih =>
      cases x with
      | none =>
          rw [read_option_eq_ok_none_iff.mp h] at hv
          cases hv
      | some x =>
          obtain ⟨_, hx⟩ := read_option_eq_ok_some_iff.mp h
          exact ih hx
  | _ => rfl

/-! ## Writing and reading back -/

/-- A list is read back when each of its items is. -/
theorem read_write_list_iff {item : Shape} {xs : List item.Carrier} :
    (list item).read ((list item).write xs) = .ok xs
      ↔ ∀ x ∈ xs, item.read (item.write x) = .ok x := by
  show (list item).read (.array (xs.map item.write)) = .ok xs ↔ _
  rw [read_list_array_eq_ok_iff, List.map_map]
  exact List.map_inj_left

/-- An optional that is present is read back when what it holds is, and does not look absent. -/
theorem read_write_some_iff {item : Shape} {x : item.Carrier} :
    (option item).read ((option item).write (some x)) = .ok (some x)
      ↔ (item.write x).isNothing = false ∧ item.read (item.write x) = .ok x :=
  read_option_eq_ok_some_iff

/-- Data of an unambiguous shape is read back. -/
theorem IsUnambiguous.read_write {t : Shape} (h : t.IsUnambiguous) (x : t.Carrier) :
    t.read (t.write x) = .ok x := by
  induction t with
  | list item ih => exact read_write_list_iff.mpr fun y _ => ih h y
  | option item ih =>
      obtain ⟨hitem, hrest⟩ := h
      cases x with
      | none => rfl
      | some x =>
          exact read_write_some_iff.mpr ⟨isNothing_write_of_mayBeNothing hitem x, ih hrest x⟩
  | _ => rfl

/-- A shape that reads back all of its data is unambiguous. -/
theorem isUnambiguous_of_read_write {t : Shape} (h : ∀ x, t.read (t.write x) = .ok x) :
    t.IsUnambiguous := by
  induction t with
  | list item ih => exact ih fun x => read_write_list_iff.mp (h [x]) x List.mem_cons_self
  | option item ih =>
      have hpresent : ∀ x, (item.write x).isNothing = false ∧ item.read (item.write x) = .ok x :=
        fun x => read_write_some_iff.mp (h (some x))
      refine ⟨?_, ih fun x => (hpresent x).2⟩
      cases item with
      | value => cases (hpresent .null).1
      | option inner => cases (hpresent none).1
      | _ => rfl
  | _ => trivial

/-- What was read from a value is read back from the value that is written for it. -/
theorem read_write_of_read {t : Shape} {v : Value} {x : t.Carrier} (h : t.read v = .ok x) :
    t.read (t.write x) = .ok x := by
  induction t generalizing v with
  | list item ih =>
      obtain ⟨vs, rfl⟩ := exists_array_of_read_list h
      have hitems := read_list_array_eq_ok_iff.mp h
      refine read_write_list_iff.mpr fun y hy => ?_
      have hread : Except.ok y ∈ vs.map item.read := hitems ▸ List.mem_map_of_mem hy
      obtain ⟨w, _, hw⟩ := List.mem_map.mp hread
      exact ih hw
  | option item ih =>
      cases x with
      | none => rfl
      | some x =>
          obtain ⟨hv, hx⟩ := read_option_eq_ok_some_iff.mp h
          exact read_write_some_iff.mpr ⟨isNothing_write_of_read hv hx, ih hx⟩
  | _ => rfl

/-- Writing and reading back loses nothing exactly when the shape is unambiguous, and for every
shape it loses nothing of what was read from a value. -/
theorem read_write_iff (t : Shape) :
    (t.IsUnambiguous ↔ ∀ x, t.read (t.write x) = .ok x)
      ∧ ∀ {v : Value} {x : t.Carrier}, t.read v = .ok x → t.read (t.write x) = .ok x :=
  ⟨⟨IsUnambiguous.read_write, isUnambiguous_of_read_write⟩, read_write_of_read⟩

/-- Optional strings in an optional list are read back. In an optional of an optional an absence
inside is lost, and what is read from a number has none. -/
theorem read_write_optionals :
    (option (list (option string))).IsUnambiguous
      ∧ (option (list (option string))).read
          ((option (list (option string))).write (some [some "a", none])) = .ok (some [some "a", none])
      ∧ (option (option float)).read ((option (option float)).write (some none)) = .ok none
      ∧ (option (option float)).read (.int 3)
          = .ok (some (some (Number.Binary64.ofInt32 3)))
      ∧ (option (option float)).read
          ((option (option float)).write (some (some (Number.Binary64.ofInt32 3))))
          = .ok (some (some (Number.Binary64.ofInt32 3))) := by
  have hshape : (option (list (option string))).IsUnambiguous := ⟨rfl, rfl, trivial⟩
  have hall := (read_write_iff (option (list (option string)))).1.mp hshape
  have hread : (option (option float)).read (.int 3)
      = .ok (some (some (Number.Binary64.ofInt32 3))) := rfl
  have hback := (read_write_iff (option (option float))).2 hread
  exact ⟨hshape, hall (some [some "a", none]), rfl, hread, hback⟩

end ScriptHost.Shape
