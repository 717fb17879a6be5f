import Mathlib.Algebra.Order.BigOperators.Group.Finset
import Mathlib.Data.List.Chain

/-!
# Histories of keyed entries

A history is a list whose entries carry a key. Reading it key by key gives one stream per key; an
observer that walks the history once and remembers the last entry of each key sees, at every step,
one adjacent pair of one stream. The two ways of summing a weight over adjacent pairs therefore
agree, and `keyedSum_concat` is the step of that walk.

An observer with room for `n` keys follows the first `n` keys to appear and skips the rest.
`admitted` is the history such an observer follows.

Two histories with the same streams are `Shuffled`. They have the same entries and the same sums
over streams, whatever the order in which the entries of different keys come.

## The construction

Everything is stated for histories that grow at the end. One more entry changes one stream, the one
of its key, and adds at most one adjacent pair to it. So a sum over all streams changes by one term,
and that term is what an observer computes from the last entry it has seen of that key.
-/

namespace KeyedHistory

section Pairs

variable {α M : Type*} [AddCommMonoid M] (w : α → α → M)

/-- The sum of a weight over the adjacent pairs of a list. -/
def adjacentSum : List α → M
  | a :: b :: l => w a b + adjacentSum (b :: l)
  | _ => 0

@[simp] theorem adjacentSum_nil : adjacentSum w [] = 0 := rfl

@[simp] theorem adjacentSum_singleton (a : α) : adjacentSum w [a] = 0 := rfl

theorem adjacentSum_cons_cons (a b : α) (l : List α) :
    adjacentSum w (a :: b :: l) = w a b + adjacentSum w (b :: l) := rfl

theorem adjacentSum_concat (l : List α) (a : α) :
    adjacentSum w (l ++ [a]) = adjacentSum w l + l.getLast?.elim 0 fun b ↦ w b a := by
  induction l with
  | nil => simp
  | cons b l ih =>
    cases l with
    | nil => simp [adjacentSum_cons_cons]
    | cons c l =>
      rw [List.cons_append, List.cons_append, adjacentSum_cons_cons, ← List.cons_append, ih,
        adjacentSum_cons_cons, add_assoc, List.getLast?_cons_cons]

private theorem adjacentSum_ite_eq_zero {R : α → α → Prop} [DecidableRel R] (l : List α) :
    adjacentSum (fun a b ↦ if R a b then 0 else 1) l = 0 ↔ l.IsChain R := by
  induction l with
  | nil => simp
  | cons a l ih =>
    cases l with
    | nil => simp
    | cons b l =>
      rw [adjacentSum_cons_cons, Nat.add_eq_zero_iff, ih, List.isChain_cons_cons]
      refine and_congr_left ?_
      intro _
      by_cases h : R a b
      · simp [h]
      · simp [h]

theorem adjacentSum_map {β : Type*} (g : β → α) (l : List β) :
    adjacentSum w (l.map g) = adjacentSum (fun a b ↦ w (g a) (g b)) l := by
  induction l with
  | nil => rfl
  | cons a l ih =>
    cases l with
    | nil => rfl
    | cons b l => exact congrArg (w (g a) (g b) + ·) ih

theorem adjacentSum_congr {w w' : α → α → M} {R : α → α → Prop} {l : List α} (hl : l.IsChain R)
    (hw : ∀ a b, R a b → w a b = w' a b) : adjacentSum w l = adjacentSum w' l := by
  induction l with
  | nil => rfl
  | cons a l ih =>
    cases l with
    | nil => rfl
    | cons b l =>
      obtain ⟨hab, htail⟩ := List.isChain_cons_cons.mp hl
      rw [adjacentSum_cons_cons, adjacentSum_cons_cons, hw a b hab, ih htail]

theorem adjacentSum_le {w : α → α → ℕ} (hw : ∀ a b, w a b ≤ 1) (l : List α) :
    adjacentSum w l ≤ l.length := by
  induction l with
  | nil => simp
  | cons a l ih =>
    cases l with
    | nil => simp
    | cons b l =>
      have := hw a b
      rw [adjacentSum_cons_cons, List.length_cons]
      omega

end Pairs

variable {α κ : Type*} [DecidableEq κ] (key : α → κ)

/-! ## Streams -/

/-- The entries with one key, in order. -/
def stream (l : List α) (k : κ) : List α := l.filter fun a ↦ key a = k

/-- The keys that occur. -/
def keySet (l : List α) : Finset κ := (l.map key).toFinset

@[simp] theorem stream_nil (k : κ) : stream key [] k = [] := rfl

theorem stream_cons_self (l : List α) (a : α) :
    stream key (a :: l) (key a) = a :: stream key l (key a) := by
  simp [stream]

theorem stream_cons_of_ne {l : List α} {a : α} {k : κ} (h : key a ≠ k) :
    stream key (a :: l) k = stream key l k := by
  simp [stream, h]

theorem stream_concat_self (l : List α) (a : α) :
    stream key (l ++ [a]) (key a) = stream key l (key a) ++ [a] := by
  simp [stream]

theorem stream_concat_of_ne {l : List α} {a : α} {k : κ} (h : key a ≠ k) :
    stream key (l ++ [a]) k = stream key l k := by
  simp [stream, h]

@[simp] theorem keySet_nil : keySet key [] = ∅ := rfl

theorem keySet_concat (l : List α) (a : α) :
    keySet key (l ++ [a]) = insert (key a) (keySet key l) := by
  ext k
  simp [keySet, eq_comm]

theorem mem_keySet {l : List α} {k : κ} : k ∈ keySet key l ↔ ∃ a ∈ l, key a = k := by
  simp [keySet]

theorem key_of_mem_stream {l : List α} {k : κ} {a : α} (h : a ∈ stream key l k) : key a = k := by
  simpa using (List.mem_filter.mp h).2

theorem mem_stream_self {l : List α} {a : α} (h : a ∈ l) : a ∈ stream key l (key a) := by
  simpa [stream] using h

theorem stream_eq_nil {l : List α} {k : κ} : stream key l k = [] ↔ k ∉ keySet key l := by
  simp [stream, keySet]

theorem length_stream_le (l : List α) (k : κ) : (stream key l k).length ≤ l.length :=
  List.length_filter_le _ _

/-! ## Sums over the streams

The sum is over the keys that occur, which change with the history. A quantity that is zero on the
empty stream can be summed over any larger set of keys instead. -/

section Sum

variable {M : Type*} [AddCommMonoid M]

/-- The sum over all keys of a quantity of their streams. -/
def streamSum (F : List α → M) (l : List α) : M := ∑ k ∈ keySet key l, F (stream key l k)

/-- Keys that do not occur may be summed over as well. -/
theorem streamSum_eq_sum {F : List α → M} (hF : F [] = 0) {l : List α} {s : Finset κ}
    (hs : keySet key l ⊆ s) : streamSum key F l = ∑ k ∈ s, F (stream key l k) := by
  refine Finset.sum_subset hs ?_
  intro k _ hk
  rw [(stream_eq_nil key).mpr hk, hF]

theorem streamSum_eq_sum_family {ν : Type*} [Fintype ν] {F : List α → M} (hF : F [] = 0)
    {l : List α} {keys : ν → κ} (hinj : Function.Injective keys)
    (hl : ∀ a ∈ l, ∃ i, key a = keys i) :
    streamSum key F l = ∑ i, F (stream key l (keys i)) := by
  have hsub : keySet key l ⊆ Finset.univ.image keys := by
    intro k hk
    obtain ⟨a, ha, rfl⟩ := (mem_keySet key).mp hk
    obtain ⟨i, hi⟩ := hl a ha
    exact Finset.mem_image.mpr ⟨i, Finset.mem_univ i, hi.symm⟩
  rw [streamSum_eq_sum key hF hsub, Finset.sum_image fun i _ j _ h ↦ hinj h]

theorem streamSum_concat {F : List α → M} (hF : F [] = 0) (l : List α) (a : α) {d : M}
    (hd : F (stream key l (key a) ++ [a]) = F (stream key l (key a)) + d) :
    streamSum key F (l ++ [a]) = streamSum key F l + d := by
  have hmem : key a ∈ insert (key a) (keySet key l) := Finset.mem_insert_self _ _
  rw [streamSum, keySet_concat, streamSum_eq_sum key hF (Finset.subset_insert (key a) _),
    ← Finset.add_sum_erase _ _ hmem, ← Finset.add_sum_erase _ _ hmem, stream_concat_self, hd]
  -- no other stream changes
  have hrest : ∑ k ∈ (insert (key a) (keySet key l)).erase (key a), F (stream key (l ++ [a]) k)
      = ∑ k ∈ (insert (key a) (keySet key l)).erase (key a), F (stream key l k) :=
    Finset.sum_congr rfl fun k hk ↦ by
      rw [stream_concat_of_ne key (Finset.ne_of_mem_erase hk).symm]
  rw [hrest, add_right_comm]

/-- The weight of all adjacent pairs of all streams. -/
def keyedSum (w : α → α → M) (l : List α) : M := streamSum key (adjacentSum w) l

@[simp] theorem keyedSum_nil (w : α → α → M) : keyedSum key w [] = 0 := rfl

theorem keyedSum_congr {w w' : α → α → M} {l : List α}
    (h : ∀ a ∈ l, adjacentSum w (stream key l (key a)) = adjacentSum w' (stream key l (key a))) :
    keyedSum key w l = keyedSum key w' l := by
  rw [keyedSum, keyedSum, streamSum, streamSum]
  refine Finset.sum_congr rfl fun k hk ↦ ?_
  obtain ⟨a, ha, rfl⟩ := (mem_keySet key).mp hk
  exact h a ha

/-- **One walk is enough.** Appending an entry adds the pair it makes with the last entry of its
own key. -/
theorem keyedSum_concat (w : α → α → M) (l : List α) (a : α) :
    keyedSum key w (l ++ [a])
      = keyedSum key w l + (stream key l (key a)).getLast?.elim 0 fun b ↦ w b a :=
  streamSum_concat key (adjacentSum_nil w) l a (adjacentSum_concat w _ a)

theorem streamSum_length (l : List α) : streamSum key List.length l = l.length := by
  induction l using List.reverseRecOn with
  | nil => rfl
  | append_singleton l a ih =>
    rw [streamSum_concat key List.length_nil l a (d := 1) (by simp), ih, List.length_append,
      List.length_singleton]

theorem keyedSum_le {w : α → α → ℕ} (hw : ∀ a b, w a b ≤ 1) (l : List α) :
    keyedSum key w l ≤ l.length := by
  rw [← streamSum_length key l, keyedSum, streamSum, streamSum]
  exact Finset.sum_le_sum fun k _ ↦ adjacentSum_le hw (stream key l k)

theorem keyedSum_ite_eq_zero {R : α → α → Prop} [DecidableRel R] (l : List α) :
    keyedSum key (fun a b ↦ if R a b then 0 else 1) l = 0
      ↔ ∀ k ∈ keySet key l, (stream key l k).IsChain R := by
  rw [keyedSum, streamSum, Finset.sum_eq_zero_iff]
  exact forall₂_congr fun k _ ↦ adjacentSum_ite_eq_zero _

end Sum

/-! ## First appearances -/

def keysOf (l : List α) : List κ :=
  l.foldl (fun ks a ↦ if key a ∈ ks then ks else ks ++ [key a]) []

@[simp] theorem keysOf_nil : keysOf key [] = [] := rfl

theorem keysOf_concat (l : List α) (a : α) :
    keysOf key (l ++ [a])
      = if key a ∈ keysOf key l then keysOf key l else keysOf key l ++ [key a] := by
  rw [keysOf, List.foldl_append, List.foldl_cons, List.foldl_nil, ← keysOf]

theorem toFinset_keysOf (l : List α) : (keysOf key l).toFinset = keySet key l := by
  induction l using List.reverseRecOn with
  | nil => rfl
  | append_singleton l a ih =>
    rw [keysOf_concat, keySet_concat]
    split_ifs with h
    · rw [ih, Finset.insert_eq_of_mem (ih ▸ List.mem_toFinset.mpr h)]
    · rw [List.toFinset_append, ih, List.toFinset_cons, List.toFinset_nil,
        Finset.union_insert, Finset.union_empty]

theorem mem_keysOf {l : List α} {k : κ} : k ∈ keysOf key l ↔ k ∈ keySet key l := by
  rw [← toFinset_keysOf, List.mem_toFinset]

theorem nodup_keysOf (l : List α) : (keysOf key l).Nodup := by
  induction l using List.reverseRecOn with
  | nil => exact List.nodup_nil
  | append_singleton l a ih =>
    rw [keysOf_concat]
    split_ifs with h
    · exact ih
    · exact List.nodup_append.mpr ⟨ih, List.nodup_singleton _, fun b hb c hc ↦ by
        rintro rfl
        exact h (List.mem_singleton.mp hc ▸ hb)⟩

theorem length_keysOf (l : List α) : (keysOf key l).length = (keySet key l).card := by
  rw [← toFinset_keysOf, List.toFinset_card_of_nodup (nodup_keysOf key l)]

/-! ## Room for `n` keys

Whether an observer follows a key is settled when the key first appears, and the keys that came
before it decide it. So the history it follows can be read off the whole one, though it never sees
that. -/

/-- The keys an observer with room for `n` of them follows. -/
def firstKeys (n : ℕ) (l : List α) : List κ := (keysOf key l).take n

/-- The history an observer with room for `n` keys follows. -/
def admitted (n : ℕ) (l : List α) : List α := l.filter fun a ↦ key a ∈ firstKeys key n l

theorem firstKeys_concat (n : ℕ) (l : List α) (a : α) :
    firstKeys key n (l ++ [a])
      = if key a ∉ keysOf key l ∧ (keysOf key l).length < n then keysOf key l ++ [key a]
        else firstKeys key n l := by
  rw [firstKeys, keysOf_concat]
  by_cases hmem : key a ∈ keysOf key l
  · rw [if_pos hmem, if_neg fun h ↦ h.1 hmem, firstKeys]
  · rw [if_neg hmem]
    by_cases hlen : (keysOf key l).length < n
    · rw [if_pos ⟨hmem, hlen⟩, List.take_of_length_le (by simp; omega)]
    · rw [if_neg fun h ↦ hlen h.2, firstKeys, List.take_append_of_le_length (by omega)]

theorem mem_firstKeys_concat {n : ℕ} {l : List α} {a b : α} (hb : b ∈ l) :
    key b ∈ firstKeys key n (l ++ [a]) ↔ key b ∈ firstKeys key n l := by
  rw [firstKeys_concat]
  split_ifs with h
  · have hbk : key b ∈ keysOf key l := (mem_keysOf key).mpr ((mem_keySet key).mpr ⟨b, hb, rfl⟩)
    rw [firstKeys, List.take_of_length_le h.2.le]
    exact ⟨fun _ ↦ hbk, fun _ ↦ List.mem_append_left _ hbk⟩
  · exact Iff.rfl

theorem admitted_concat (n : ℕ) (l : List α) (a : α) :
    admitted key n (l ++ [a])
      = if key a ∈ firstKeys key n (l ++ [a]) then admitted key n l ++ [a]
        else admitted key n l := by
  have hpast : (l.filter fun b ↦ key b ∈ firstKeys key n (l ++ [a])) = admitted key n l :=
    List.filter_congr fun b hb ↦ by rw [decide_eq_decide]; exact mem_firstKeys_concat key hb
  rw [admitted, List.filter_append, hpast]
  split_ifs with h
  · simp [h]
  · simp [h]

theorem keysOf_admitted (n : ℕ) (l : List α) :
    keysOf key (admitted key n l) = firstKeys key n l := by
  induction l using List.reverseRecOn with
  | nil => simp [admitted, firstKeys]
  | append_singleton l a ih =>
    rw [admitted_concat, firstKeys_concat]
    -- a new key is followed as long as there is room
    by_cases hnew : key a ∉ keysOf key l ∧ (keysOf key l).length < n
    · have hall : firstKeys key n l = keysOf key l := List.take_of_length_le hnew.2.le
      rw [if_pos hnew, if_pos (by simp), keysOf_concat, ih, hall, if_neg hnew.1]
    · rw [if_neg hnew]
      split_ifs with h
      · rw [keysOf_concat, ih, if_pos h]
      · exact ih

/-- The observer decides whether to follow an entry from the keys it follows already. -/
theorem admitted_concat_of_room (n : ℕ) (l : List α) (a : α) :
    admitted key n (l ++ [a])
      = if key a ∈ keysOf key (admitted key n l) ∨ (keysOf key (admitted key n l)).length < n then
          admitted key n l ++ [a]
        else admitted key n l := by
  rw [admitted_concat, keysOf_admitted, firstKeys_concat]
  by_cases hnew : key a ∉ keysOf key l ∧ (keysOf key l).length < n
  · have hall : firstKeys key n l = keysOf key l := List.take_of_length_le hnew.2.le
    rw [if_pos hnew, if_pos (by simp), if_pos (Or.inr (hall ▸ hnew.2))]
  · rw [if_neg hnew]
    by_cases hlen : (keysOf key l).length < n
    · have hall : firstKeys key n l = keysOf key l := List.take_of_length_le hlen.le
      have hmem : key a ∈ keysOf key l := not_not.mp fun h ↦ hnew ⟨h, hlen⟩
      rw [hall, if_pos hmem, if_pos (Or.inl hmem)]
    · -- without room the keys that are followed are fixed
      have hfull : (firstKeys key n l).length = n := by
        rw [firstKeys, List.length_take]
        omega
      simp [hfull]

theorem card_keySet_admitted_le (n : ℕ) (l : List α) :
    (keySet key (admitted key n l)).card ≤ n := by
  rw [← length_keysOf, keysOf_admitted, firstKeys]
  exact List.length_take_le n _

theorem admitted_of_card_le {n : ℕ} {l : List α} (h : (keySet key l).card ≤ n) :
    admitted key n l = l := by
  refine List.filter_eq_self.mpr ?_
  intro a ha
  rw [firstKeys, List.take_of_length_le ((length_keysOf key l).trans_le h), decide_eq_true_eq]
  exact (mem_keysOf key).mpr ((mem_keySet key).mpr ⟨a, ha, rfl⟩)

theorem stream_admitted {n : ℕ} {l : List α} {k : κ} (h : k ∈ firstKeys key n l) :
    stream key (admitted key n l) k = stream key l k := by
  rw [stream, admitted, List.filter_filter, stream]
  refine List.filter_congr ?_
  intro a _
  rw [← Bool.decide_and, decide_eq_decide]
  exact ⟨fun ha ↦ ha.1, fun ha ↦ ⟨ha, ha ▸ h⟩⟩

/-! ## The same streams

This is the order that a concurrent system leaves open. Anything that is computed stream by stream
and added up comes out the same. -/

section Shuffled

variable {l l' : List α}

/-- The histories have the same streams and differ only in how these are interleaved. -/
def Shuffled (l l' : List α) : Prop := ∀ k, stream key l k = stream key l' k

variable {key}

theorem Shuffled.keySet_eq (h : Shuffled key l l') : keySet key l = keySet key l' := by
  ext k
  rw [← not_iff_not, ← stream_eq_nil, ← stream_eq_nil, h k]

theorem Shuffled.streamSum_eq {M : Type*} [AddCommMonoid M] (h : Shuffled key l l')
    (F : List α → M) : streamSum key F l = streamSum key F l' := by
  rw [streamSum, streamSum, h.keySet_eq]
  exact Finset.sum_congr rfl fun k _ ↦ congrArg F (h k)

theorem Shuffled.perm [DecidableEq α] (h : Shuffled key l l') : l.Perm l' := by
  rw [List.perm_iff_count]
  intro a
  have hself (l : List α) : (stream key l (key a)).count a = l.count a :=
    List.count_filter (decide_eq_true rfl)
  rw [← hself l, ← hself l', h (key a)]

theorem Shuffled.keysOf_perm (h : Shuffled key l l') : (keysOf key l).Perm (keysOf key l') := by
  refine List.perm_of_nodup_nodup_toFinset_eq (nodup_keysOf key l) (nodup_keysOf key l') ?_
  rw [toFinset_keysOf, toFinset_keysOf, h.keySet_eq]

end Shuffled

end KeyedHistory
