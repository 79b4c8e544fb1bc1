import NixRemoteStore.Errors

/-! # Output maps

`std::map<std::string, std::optional<StorePath>>`, its entries kept in the order of
`std::string`'s `<` as a field of the structure, with the two insertions the merge of
`queryPartialDerivationOutputMap` uses. -/

namespace NixRemoteStore

section Order

/-! `bytesLt` is a strict total order. -/

theorem bytesLt_irrefl (a : Bytes) : bytesLt a a = false := by
  induction a with
  | nil => rfl
  | cons x xs ih => simp [bytesLt, ih]

theorem bytesLt_trans {a b c : Bytes} (hab : bytesLt a b = true) (hbc : bytesLt b c = true) :
    bytesLt a c = true := by
  induction a generalizing b c with
  | nil => cases b <;> cases c <;> simp_all [bytesLt]
  | cons x xs ih =>
    cases b with
    | nil => simp [bytesLt] at hab
    | cons y ys =>
      cases c with
      | nil => simp [bytesLt] at hbc
      | cons z zs =>
        simp only [bytesLt, Bool.or_eq_true, decide_eq_true_eq, Bool.and_eq_true, beq_iff_eq]
          at hab hbc ⊢
        rcases hab with h | ⟨rfl, h⟩ <;> rcases hbc with h' | ⟨rfl, h'⟩
        · exact .inl (by omega)
        · exact .inl h
        · exact .inl h'
        · exact .inr ⟨rfl, ih h h'⟩

theorem bytesLt_of_not {a b : Bytes} (hne : a ≠ b) (h : bytesLt a b = false) :
    bytesLt b a = true := by
  induction a generalizing b with
  | nil => cases b <;> simp_all [bytesLt]
  | cons x xs ih =>
    cases b with
    | nil => rfl
    | cons y ys =>
      simp only [bytesLt, Bool.or_eq_false_iff, decide_eq_false_iff_not, Bool.and_eq_false_iff,
        beq_eq_false_iff_ne, ne_eq, Bool.or_eq_true, decide_eq_true_eq, Bool.and_eq_true,
        beq_iff_eq] at h ⊢
      by_cases hxy : x = y
      · subst hxy
        exact .inr ⟨rfl, ih (fun h' => hne (by rw [h'])) (h.2.resolve_left (by simp))⟩
      · have hne' : x.toNat ≠ y.toNat := fun h' => hxy (UInt8.toNat.inj h')
        exact .inl (by omega)

end Order

def lookupEntry (k : Bytes) : List (Bytes × Option Bytes) → Option (Option Bytes)
  | [] => none
  | (k', v) :: es => if k = k' then some v else lookupEntry k es

def insertEntry (k : Bytes) (v : Option Bytes) :
    List (Bytes × Option Bytes) → List (Bytes × Option Bytes)
  | [] => [(k, v)]
  | (k', v') :: es =>
    if k = k' then (k, v) :: es
    else if bytesLt k k' then (k, v) :: (k', v') :: es
    else (k', v') :: insertEntry k v es

theorem lookupEntry_insertEntry (k k' : Bytes) (v : Option Bytes)
    (es : List (Bytes × Option Bytes)) :
    lookupEntry k' (insertEntry k v es) = if k' = k then some v else lookupEntry k' es := by
  induction es with
  | nil => simp [insertEntry, lookupEntry]
  | cons e es ih =>
    obtain ⟨k₀, v₀⟩ := e
    by_cases h : k = k₀
    · subst h; by_cases h' : k' = k <;> simp [insertEntry, lookupEntry, h']
    · by_cases hl : bytesLt k k₀ <;> by_cases h' : k' = k <;>
        simp_all [insertEntry, lookupEntry]

theorem mem_insertEntry {k x : Bytes} {v : Option Bytes} {es : List (Bytes × Option Bytes)}
    (h : x ∈ (insertEntry k v es).map Prod.fst) : x = k ∨ x ∈ es.map Prod.fst := by
  induction es with
  | nil => simpa [insertEntry] using h
  | cons e es ih =>
    unfold insertEntry at h
    split_ifs at h with h₁ h₂ <;> simp only [List.map_cons, List.mem_cons] at h ⊢
    · rcases h with rfl | h
      · exact .inl rfl
      · exact .inr (.inr h)
    · rcases h with h | h | h <;> simp [h]
    · rcases h with h | h
      · exact .inr (.inl h)
      · rcases ih h with h | h <;> simp [h]

def Ordered (es : List (Bytes × Option Bytes)) : Prop :=
  es.Pairwise fun a b => bytesLt a.1 b.1 = true

theorem ordered_insertEntry (k : Bytes) (v : Option Bytes) {es : List (Bytes × Option Bytes)}
    (hes : Ordered es) : Ordered (insertEntry k v es) := by
  induction es with
  | nil => simp [Ordered, insertEntry]
  | cons e es ih =>
    obtain ⟨k₀, v₀⟩ := e
    simp only [Ordered, List.pairwise_cons] at hes
    unfold insertEntry
    split_ifs with h₁ h₂
    · subst h₁; exact List.pairwise_cons.mpr hes
    · refine List.pairwise_cons.mpr ⟨fun b hb => ?_, List.pairwise_cons.mpr hes⟩
      rcases List.mem_cons.mp hb with rfl | hb
      · exact h₂
      · exact bytesLt_trans h₂ (hes.1 b hb)
    · refine List.pairwise_cons.mpr ⟨fun b hb => ?_, ih hes.2⟩
      rcases mem_insertEntry (List.mem_map_of_mem Prod.fst hb) with h | h
      · rw [h]; exact bytesLt_of_not h₁ (by simpa using h₂)
      · obtain ⟨b', hb', he⟩ := List.mem_map.mp h
        rw [← he]; exact hes.1 b' hb'

/-- `std::map<std::string, std::optional<StorePath>>`. -/
structure OutputMap where
  entries : List (Bytes × Option Bytes)
  ordered : Ordered entries

namespace OutputMap

def empty : OutputMap := ⟨[], List.Pairwise.nil⟩

def find (m : OutputMap) (k : Bytes) : Option (Option Bytes) := lookupEntry k m.entries

/-- `m.insert_or_assign(k, v)`. -/
def insertOrAssign (m : OutputMap) (k : Bytes) (v : Option Bytes) : OutputMap :=
  ⟨insertEntry k v m.entries, ordered_insertEntry k v m.ordered⟩

/-- `m.insert({k, v})`: a key already there keeps its entry. -/
def insert (m : OutputMap) (k : Bytes) (v : Option Bytes) : OutputMap :=
  if (m.find k).isSome then m else m.insertOrAssign k v

/-- A map read entry by entry with `insert_or_assign`, as the worker protocol reads one. -/
def ofList (l : List (Bytes × Option Bytes)) : OutputMap :=
  l.foldl (fun m e => m.insertOrAssign e.1 e.2) empty

@[simp] theorem find_empty (k : Bytes) : empty.find k = none := rfl

theorem find_insertOrAssign (m : OutputMap) (k k' : Bytes) (v : Option Bytes) :
    (m.insertOrAssign k v).find k' = if k' = k then some v else m.find k' :=
  lookupEntry_insertEntry k k' v m.entries

theorem find_insert (m : OutputMap) (k k' : Bytes) (v : Option Bytes) :
    (m.insert k v).find k' = if k' = k then some ((m.find k).getD v) else m.find k' := by
  unfold insert
  by_cases hk : (m.find k).isSome
  · obtain ⟨w, hw⟩ := Option.isSome_iff_exists.mp hk
    by_cases h' : k' = k <;> simp [hw, h']
  · rw [Option.not_isSome_iff_eq_none.mp hk]
    simp [hk, find_insertOrAssign]

theorem nodup_keys (m : OutputMap) : (m.entries.map Prod.fst).Nodup := by
  refine List.Pairwise.map Prod.fst (fun a b h he => ?_) m.ordered
  rw [he, bytesLt_irrefl] at h
  exact Bool.false_ne_true h

end OutputMap

end NixRemoteStore
