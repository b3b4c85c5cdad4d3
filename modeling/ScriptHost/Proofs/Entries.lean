import ScriptHost.Entries

/-!
# Entries put one after the other

`Entries.puts` puts a list of keys with values, one after the other. Main statements: a key has the
value that was put last (`find?_puts`), and the keys stand in the order in which they were put
first (`keys_puts`).
-/

set_option autoImplicit false

namespace ScriptHost.Entries

variable {α : Type}

/-- Puts keys with their values, one after the other. -/
def puts (es : Entries α) (kvs : List (String × α)) : Entries α :=
  kvs.foldl (fun es kv => es.put kv.1 kv.2) es

/-- The value in the last of some pairs with a key. -/
def lastValue? (key : String) (kvs : List (String × α)) : Option α := kvs.reverse.lookup key

@[simp] theorem puts_nil (es : Entries α) : es.puts [] = es := rfl

theorem puts_append (es : Entries α) (kvs kvs' : List (String × α)) :
    es.puts (kvs ++ kvs') = (es.puts kvs).puts kvs' :=
  List.foldl_append

theorem lastValue?_append (key : String) (kvs kvs' : List (String × α)) :
    lastValue? key (kvs ++ kvs') = (lastValue? key kvs').or (lastValue? key kvs) := by
  rw [lastValue?, List.reverse_append, List.lookup_append]
  rfl

theorem lastValue?_eq_none_iff {key : String} {kvs : List (String × α)} :
    lastValue? key kvs = none ↔ key ∉ kvs.map (·.1) := by
  rw [lastValue?, List.lookup_eq_none_iff]
  constructor
  · intro h hmem
    obtain ⟨kv, hkv, rfl⟩ := List.mem_map.mp hmem
    exact absurd (h kv (List.mem_reverse.mpr hkv)) (by simp)
  · intro h kv hkv
    have hne : key ≠ kv.1 := fun heq => h (heq ▸ List.mem_map_of_mem (List.mem_reverse.mp hkv))
    exact bne_iff_ne.mpr hne

/-- The value that was put last counts, and otherwise the one from before. -/
theorem find?_puts (key : String) (es : Entries α) (kvs : List (String × α)) :
    (es.puts kvs).find? key = (lastValue? key kvs).or (es.find? key) := by
  induction kvs generalizing es with
  | nil => rfl
  | cons kv kvs ih =>
      have hstep : (es.put kv.1 kv.2).find? key = (lastValue? key [kv]).or (es.find? key) := by
        by_cases hkey : key = kv.1
        · subst hkey
          rw [find?_put_self]
          show some kv.2 = (List.lookup kv.1 [kv]).or _
          rw [List.lookup_cons, beq_self_eq_true]
          rfl
        · rw [find?_put_of_ne hkey]
          show _ = (List.lookup key [kv]).or _
          rw [List.lookup_cons, beq_eq_false_iff_ne.mpr hkey]
          rfl
      show ((es.put kv.1 kv.2).puts kvs).find? key = (lastValue? key ([kv] ++ kvs)).or _
      rw [ih, hstep, lastValue?_append, Option.or_assoc]

/-- Keys stand in the order in which they were put first. -/
theorem keys_puts {es : Entries α} {ks : List String} (hes : es.keys = ks.eraseDups)
    (kvs : List (String × α)) : (es.puts kvs).keys = (ks ++ kvs.map (·.1)).eraseDups := by
  induction kvs generalizing es ks with
  | nil => rw [puts_nil, List.map_nil, List.append_nil, hes]
  | cons kv kvs ih =>
      have hstep : (es.put kv.1 kv.2).keys = (ks ++ [kv.1]).eraseDups := by
        rw [keys_put, hes, List.eraseDups_append]
        by_cases hmem : kv.1 ∈ ks
        · rw [if_pos (List.mem_eraseDups.mpr hmem)]
          simp [List.removeAll, hmem]
        · rw [if_neg (fun h => hmem (List.mem_eraseDups.mp h))]
          simp [List.removeAll, hmem, List.eraseDups_cons]
      show ((es.put kv.1 kv.2).puts kvs).keys = _
      rw [ih hstep, List.map_cons, List.append_assoc, List.singleton_append]

theorem nodup_keys_puts {es : Entries α} (hes : es.keys.Nodup) (kvs : List (String × α)) :
    (es.puts kvs).keys.Nodup := by
  induction kvs generalizing es with
  | nil => exact hes
  | cons kv kvs ih => exact ih (nodup_keys_put hes kv.1 kv.2)

/-- Where each step puts what it stands for among the entries that a state shows, and keeps an
invariant, all steps together put what they stand for in their order. -/
theorem view_foldl {σ β : Type} (inv : σ → Prop) (view : σ → Entries α) (step : σ → β → σ)
    (put? : β → Option (String × α))
    (hstep : ∀ s b, inv s → inv (step s b) ∧ view (step s b) = (view s).puts (put? b).toList)
    (bs : List β) {s : σ} (hs : inv s) :
    inv (bs.foldl step s) ∧ view (bs.foldl step s) = (view s).puts (bs.filterMap put?) := by
  induction bs generalizing s with
  | nil => exact ⟨hs, rfl⟩
  | cons b bs ih =>
      obtain ⟨hinv, hview⟩ := hstep s b hs
      obtain ⟨hinv', hview'⟩ := ih hinv
      have hfilter : (b :: bs).filterMap put? = (put? b).toList ++ bs.filterMap put? := by
        cases hb : put? b with
        | none => rw [List.filterMap_cons_none hb]; rfl
        | some kv => rw [List.filterMap_cons_some hb]; rfl
      refine ⟨hinv', ?_⟩
      rw [List.foldl_cons, hview', hview, hfilter, puts_append]

/-- Putting the value that a key has changes nothing. -/
theorem put_of_find? {key : String} {value : α} {es : Entries α} (h : es.find? key = some value) :
    es.put key value = es := by
  induction es with
  | nil => cases h
  | cons e es ih =>
      rw [find?] at h
      rw [put]
      split at h
      · rename_i he
        rw [if_pos he, ← Option.some.inj h]
      · rename_i he
        rw [if_neg he, ih h]

/-! ## Entries in two parts -/

theorem keys_append (es es' : Entries α) : keys (es ++ es') = es.keys ++ es'.keys :=
  List.map_append

theorem find?_eq_none_iff {key : String} {es : Entries α} : es.find? key = none ↔ key ∉ es.keys := by
  rw [← find?_isSome_iff, Option.not_isSome_iff_eq_none]

theorem find?_append (key : String) (es es' : Entries α) :
    find? key (es ++ es') = (es.find? key).or (es'.find? key) := by
  induction es with
  | nil => rfl
  | cons e es ih =>
      rw [List.cons_append, find?, find?]
      split
      · rfl
      · exact ih

theorem put_append_of_mem {key : String} {es : Entries α} (h : key ∈ es.keys) (value : α)
    (es' : Entries α) : put key value (es ++ es') = es.put key value ++ es' := by
  induction es with
  | nil => exact absurd h List.not_mem_nil
  | cons e es ih =>
      rw [List.cons_append, put, put]
      by_cases he : e.1 = key
      · rw [if_pos he, if_pos he, List.cons_append]
      · rw [if_neg he, if_neg he, List.cons_append]
        rcases List.mem_cons.mp h with heq | hrest
        · exact absurd heq.symm he
        · rw [ih hrest]

theorem put_append_of_not_mem {key : String} {es : Entries α} (h : key ∉ es.keys) (value : α)
    (es' : Entries α) : put key value (es ++ es') = es ++ put key value es' := by
  induction es with
  | nil => rfl
  | cons e es ih =>
      have he : e.1 ≠ key := fun heq => h (heq ▸ List.mem_cons_self)
      have hrest : key ∉ keys es := fun hmem => h (List.mem_cons_of_mem _ hmem)
      rw [List.cons_append, put, if_neg he, ih hrest, List.cons_append]

theorem put_of_not_mem {key : String} {es : Entries α} (h : key ∉ es.keys) (value : α) :
    put key value es = es ++ [(key, value)] := by
  have happend := put_append_of_not_mem h value []
  rwa [List.append_nil] at happend

/-! ## Entries from two lists -/

theorem keys_zip {names : List String} {items : List α} (h : items.length = names.length) :
    keys (names.zip items) = names :=
  List.map_fst_zip (Nat.le_of_eq h.symm)

/-- The value of a key is the item in the place where the key stands. -/
theorem find?_zip {names : List String} (hnames : names.Nodup) {items : List α}
    (hlength : items.length = names.length) {key : String} {i : Nat}
    (hi : names[i]? = some key) : find? key (names.zip items) = items[i]? := by
  induction names generalizing items i with
  | nil => cases hi
  | cons name names ih =>
      obtain ⟨hname, hrest⟩ := List.nodup_cons.mp hnames
      cases items with
      | nil => cases hlength
      | cons item items =>
          rw [List.zip_cons_cons, find?]
          cases i with
          | zero =>
              rw [List.getElem?_cons_zero, Option.some.injEq] at hi
              rw [if_pos hi]
              rfl
          | succ i =>
              rw [List.getElem?_cons_succ] at hi
              have hne : name ≠ key := fun heq => hname (heq ▸ List.mem_of_getElem? hi)
              rw [if_neg hne, List.getElem?_cons_succ]
              exact ih hrest (Nat.succ.inj hlength) hi

/-- Putting a key changes the item in the place where the key stands. -/
theorem put_zip {names : List String} (hnames : names.Nodup) {items : List α}
    (hlength : items.length = names.length) {key : String} {i : Nat}
    (hi : names[i]? = some key) (value : α) :
    put key value (names.zip items) = names.zip (items.set i value) := by
  induction names generalizing items i with
  | nil => cases hi
  | cons name names ih =>
      obtain ⟨hname, hrest⟩ := List.nodup_cons.mp hnames
      cases items with
      | nil => cases hlength
      | cons item items =>
          rw [List.zip_cons_cons, put]
          cases i with
          | zero =>
              rw [List.getElem?_cons_zero, Option.some.injEq] at hi
              rw [if_pos hi]
              rfl
          | succ i =>
              rw [List.getElem?_cons_succ] at hi
              have hne : name ≠ key := fun heq => hname (heq ▸ List.mem_of_getElem? hi)
              rw [if_neg hne, ih hrest (Nat.succ.inj hlength) hi]
              rfl

end ScriptHost.Entries
