/-! Dictionaries that remember the order in which keys were first written. A key that is
written again keeps its place and takes the new value. -/

namespace ApiGraph

/-- A finite map as the list of its entries, in order of first insertion. -/
abbrev Dict (κ α : Type) := List (κ × α)

namespace Dict

variable {κ α β : Type} [BEq κ]

/-- The keys, in order. -/
def keys (d : Dict κ α) : List κ := List.map Prod.fst d

/-- The values, in the order of their keys. -/
def values (d : Dict κ α) : List α := List.map Prod.snd d

/-- Whether the key has an entry. -/
def has (d : Dict κ α) (k : κ) : Bool := (List.lookup k d).isSome

/-- Gives the key a value, in its old place when it has one and at the end otherwise. -/
def put : Dict κ α → κ → α → Dict κ α
  | [], k, v => [(k, v)]
  | (k', v') :: rest, k, v => if k == k' then (k', v) :: rest else (k', v') :: put rest k v

/-- Writes every entry of the second dictionary into the first, in order. -/
def merge (d e : Dict κ α) : Dict κ α := List.foldl (fun acc p => put acc p.1 p.2) d e

/-- The dictionary that results from writing the entries one after the other. -/
def ofEntries (entries : List (κ × α)) : Dict κ α := merge [] entries

/-- Changes the value of a key that has one. -/
def adjust (d : Dict κ α) (k : κ) (f : α → α) : Dict κ α :=
  List.map (fun p => if p.1 == k then (p.1, f p.2) else p) d

theorem keys_put_of_has [LawfulBEq κ] (d : Dict κ α) (k : κ) (v : α) (h : has d k = true) :
    keys (put d k v) = keys d := by
  induction d with
  | nil => simp [has] at h
  | cons p rest ih =>
    obtain ⟨k', v'⟩ := p
    by_cases hk : k == k'
    · simp [put, hk, keys]
    · have hr : has rest k = true := by simpa [has, List.lookup_cons, hk] using h
      simpa [put, hk, keys] using ih hr

theorem put_of_not_has (d : Dict κ α) (k : κ) (v : α) (h : has d k = false) :
    put d k v = d ++ [(k, v)] := by
  induction d with
  | nil => rfl
  | cons p rest ih =>
    obtain ⟨k', v'⟩ := p
    by_cases hk : k == k'
    · simp [has, List.lookup_cons, hk] at h
    · have hr : has rest k = false := by simpa [has, List.lookup_cons, hk] using h
      simp [put, hk, ih hr]

@[simp] theorem lookup_put_self [LawfulBEq κ] (d : Dict κ α) (k : κ) (v : α) :
    List.lookup k (put d k v) = some v := by
  induction d with
  | nil => simp [put]
  | cons p rest ih =>
    obtain ⟨k', v'⟩ := p
    by_cases hk : k == k' <;> simp [put, hk, List.lookup_cons, ih]

theorem lookup_put_of_ne [LawfulBEq κ] (d : Dict κ α) {k j : κ} (v : α) (h : (j == k) = false) :
    List.lookup j (put d k v) = List.lookup j d := by
  induction d with
  | nil => simp [put, List.lookup_cons, h]
  | cons p rest ih =>
    obtain ⟨k', v'⟩ := p
    by_cases hk : k == k'
    · have : k = k' := by simpa using hk
      subst this
      simp [put, List.lookup_cons, h]
    · by_cases hj : j == k' <;> simp [put, hk, List.lookup_cons, hj, ih]

theorem mem_keys_iff_has (d : Dict κ α) (k : κ) [LawfulBEq κ] : k ∈ keys d ↔ has d k = true := by
  simp [keys, has]

theorem mem_keys_of_lookup [LawfulBEq κ] {d : Dict κ α} {k : κ} {v : α}
    (h : List.lookup k d = some v) : k ∈ keys d := by
  rw [mem_keys_iff_has, has, h]
  rfl

theorem mem_of_lookup [LawfulBEq κ] {d : Dict κ α} {k : κ} {v : α}
    (h : List.lookup k d = some v) : (k, v) ∈ d := by
  obtain ⟨l₁, l₂, rfl, -⟩ := List.lookup_eq_some_iff.1 h
  simp

theorem lookup_of_mem [LawfulBEq κ] {d : Dict κ α} {k : κ} {v : α} (hd : (keys d).Nodup)
    (h : (k, v) ∈ d) : List.lookup k d = some v := by
  obtain ⟨l₁, l₂, rfl⟩ := List.append_of_mem h
  refine List.lookup_eq_some_iff.2 ⟨l₁, l₂, rfl, fun p hp => ?_⟩
  simp only [keys, List.map_append, List.map_cons, List.nodup_append] at hd
  have hne := hd.2.2 p.1 (List.mem_map_of_mem hp) k (by simp)
  simpa using fun h => hne h.symm

theorem mem_put [LawfulBEq κ] {d : Dict κ α} {k : κ} {v : α} {p : κ × α} (h : p ∈ put d k v) :
    p ∈ d ∨ p = (k, v) := by
  induction d with
  | nil => simpa [put] using h
  | cons q rest ih =>
    obtain ⟨k', v'⟩ := q
    unfold put at h
    split at h
    · next hk =>
      rcases List.mem_cons.1 h with rfl | hr
      · exact Or.inr (by simp [eq_of_beq hk])
      · exact Or.inl (List.mem_cons_of_mem _ hr)
    · rcases List.mem_cons.1 h with rfl | hr
      · exact Or.inl (by simp)
      · exact (ih hr).imp_left (List.mem_cons_of_mem _)

theorem mem_keys_put [LawfulBEq κ] {d : Dict κ α} {k j : κ} {v : α} :
    j ∈ keys (put d k v) ↔ j ∈ keys d ∨ j = k := by
  by_cases h : has d k = true
  · rw [keys_put_of_has d k v h]
    exact ⟨Or.inl, fun hj => hj.elim id fun e => e ▸ (mem_keys_iff_has d k).2 h⟩
  · rw [put_of_not_has d k v (by simpa using h)]
    simp [keys]

theorem nodup_keys_put [LawfulBEq κ] {d : Dict κ α} (k : κ) (v : α) (h : (keys d).Nodup) :
    (keys (put d k v)).Nodup := by
  by_cases hk : has d k = true
  · rwa [keys_put_of_has d k v hk]
  · have hn : k ∉ keys d := fun hm => hk ((mem_keys_iff_has d k).1 hm)
    rw [put_of_not_has d k v (by simpa using hk)]
    simpa [keys, List.nodup_append] using ⟨by simpa [keys] using h, fun a v ha e =>
      hn (by subst e; exact List.mem_map_of_mem ha)⟩

end Dict

end ApiGraph
