import Mathlib.Data.List.Nodup

/-!
# Ordered multimaps

A `Multimap` keeps its keys in the order in which they came in, and with each key all of its values. It is read in two
ways: `items` names the key with every value, `intoIter` (the reading that gives the map away) only with the first value of
a key, so that the reader has to remember the key of a later value. `heads` is what is left of a map whose reader does not
(`heads_filter_eq_iff`).
-/

/-- A key with its values, the first one apart. -/
structure Bucket (κ β : Type) where
  key : κ
  value : β
  extra : List β
deriving DecidableEq

namespace Bucket

variable {κ β : Type}

def items (b : Bucket κ β) : List (κ × β) := (b.key, b.value) :: b.extra.map fun v => (b.key, v)

def intoIter (b : Bucket κ β) : List (Option κ × β) := (some b.key, b.value) :: b.extra.map fun v => (none, v)

/-- The key with its first value. -/
def head (b : Bucket κ β) : κ × β := (b.key, b.value)

def push (v : β) (b : Bucket κ β) : Bucket κ β := { b with extra := b.extra ++ [v] }

def replace (v : β) (b : Bucket κ β) : Bucket κ β := { b with value := v, extra := [] }

theorem key_of_mem_items {b : Bucket κ β} {item : κ × β} (h : item ∈ b.items) : item.1 = b.key := by
  rcases List.mem_cons.mp h with rfl | hextra
  · rfl
  · obtain ⟨v, -, rfl⟩ := List.mem_map.mp hextra
    rfl

theorem filter_items (p : κ → Bool) (b : Bucket κ β) :
    (b.items.filter fun item => p item.1) = if p b.key then b.items else [] := by
  split
  · rename_i hp
    exact List.filter_eq_self.mpr fun item hitem => by rw [key_of_mem_items hitem, hp]
  · rename_i hp
    exact List.filter_eq_nil_iff.mpr fun item hitem => by rwa [key_of_mem_items hitem]

end Bucket

structure Multimap (κ β : Type) where
  buckets : List (Bucket κ β)
  nodup : (buckets.map Bucket.key).Nodup

namespace Multimap

variable {κ β : Type}

@[ext] theorem ext {m m' : Multimap κ β} (h : m.buckets = m'.buckets) : m = m' := by
  cases m
  cases m'
  cases h
  rfl

def empty : Multimap κ β := ⟨[], List.nodup_nil⟩

/-- The keys, in the order in which they came in. -/
def keys (m : Multimap κ β) : List κ := m.buckets.map Bucket.key

/-- Every value with its key. -/
def items (m : Multimap κ β) : List (κ × β) := m.buckets.flatMap Bucket.items

/-- Every value, and with the first of a key the key. -/
def intoIter (m : Multimap κ β) : List (Option κ × β) := m.buckets.flatMap Bucket.intoIter

/-- All values of a key, in their order. -/
def getAll [DecidableEq κ] (m : Multimap κ β) (k : κ) : List β :=
  (m.items.filter fun item => item.1 = k).map Prod.snd

/-! ### Writing -/

section

variable [DecidableEq κ]

/-- Change the bucket of a key, or put a new one with the value at the end. -/
def putBucket (k : κ) (v : β) (f : Bucket κ β → Bucket κ β) : List (Bucket κ β) → List (Bucket κ β)
  | [] => [⟨k, v, []⟩]
  | b :: rest => if b.key = k then f b :: rest else b :: putBucket k v f rest

theorem putBucket_append {k : κ} (v : β) (f : Bucket κ β → Bucket κ β) {bs : List (Bucket κ β)}
    (h : k ∉ bs.map Bucket.key) (rest : List (Bucket κ β)) :
    putBucket k v f (bs ++ rest) = bs ++ putBucket k v f rest := by
  induction bs with
  | nil => rfl
  | cons b bs ih =>
    rw [List.map_cons, List.mem_cons, not_or] at h
    rw [List.cons_append, putBucket, if_neg (Ne.symm h.1), ih h.2, List.cons_append]

theorem putBucket_of_notMem {k : κ} (v : β) (f : Bucket κ β → Bucket κ β) {bs : List (Bucket κ β)}
    (h : k ∉ bs.map Bucket.key) : putBucket k v f bs = bs ++ [⟨k, v, []⟩] := by
  have hput := putBucket_append v f h []
  rwa [List.append_nil] at hput

theorem keys_putBucket (f : Bucket κ β → Bucket κ β) (hf : ∀ b, (f b).key = b.key) (k : κ) (v : β)
    (bs : List (Bucket κ β)) :
    (putBucket k v f bs).map Bucket.key = if k ∈ bs.map Bucket.key then bs.map Bucket.key else bs.map Bucket.key ++ [k] := by
  induction bs with
  | nil => rfl
  | cons b rest ih =>
    rw [putBucket]
    split
    · rename_i hk
      rw [if_pos (by simp [hk]), List.map_cons, hf, List.map_cons]
    · rename_i hk
      rw [List.map_cons, ih, List.map_cons]
      simp only [List.mem_cons, Ne.symm hk, false_or]
      split <;> rfl

/-- A new bucket, or a change to an old one. -/
def put (m : Multimap κ β) (k : κ) (v : β) (f : Bucket κ β → Bucket κ β) (hf : ∀ b, (f b).key = b.key) :
    Multimap κ β where
  buckets := putBucket k v f m.buckets
  nodup := by
    rw [keys_putBucket _ hf]
    split
    · exact m.nodup
    · rename_i hk
      exact List.nodup_append.mpr ⟨m.nodup, List.nodup_singleton k, fun a ha b hb hab => hk (by
        rw [List.mem_singleton] at hb
        rw [← hb, ← hab]
        exact ha)⟩

/-- Write a value in the place of all that the key has. -/
def insert (m : Multimap κ β) (k : κ) (v : β) : Multimap κ β :=
  m.put k v (Bucket.replace v) fun _ => rfl

/-- Write a value after those that the key has. -/
def append (m : Multimap κ β) (k : κ) (v : β) : Multimap κ β :=
  m.put k v (Bucket.push v) fun _ => rfl

def appendAll (m : Multimap κ β) (items : List (κ × β)) : Multimap κ β :=
  items.foldl (fun m item => m.append item.1 item.2) m

@[simp] theorem appendAll_nil (m : Multimap κ β) : m.appendAll [] = m := rfl

@[simp] theorem appendAll_cons (m : Multimap κ β) (item : κ × β) (items : List (κ × β)) :
    m.appendAll (item :: items) = (m.append item.1 item.2).appendAll items := rfl

/-- The multimap of some pairs, in the order of their arrival. -/
def ofItems (items : List (κ × β)) : Multimap κ β := empty.appendAll items

theorem buckets_insert_of_notMem {m : Multimap κ β} {k : κ} (h : k ∉ m.keys) (v : β) :
    (m.insert k v).buckets = m.buckets ++ [⟨k, v, []⟩] :=
  putBucket_of_notMem v _ h

theorem keys_append (m : Multimap κ β) (k : κ) (v : β) :
    (m.append k v).keys = if k ∈ m.keys then m.keys else m.keys ++ [k] :=
  keys_putBucket (Bucket.push v) (fun _ => rfl) k v m.buckets

/-- Values of the key that came in last. -/
theorem buckets_appendAll_last {k : κ} {v : β} {front : List (Bucket κ β)} (vs : List β) {m : Multimap κ β} {extra : List β}
    (h : m.buckets = front ++ [⟨k, v, extra⟩]) :
    (m.appendAll (vs.map fun v => (k, v))).buckets = front ++ [⟨k, v, extra ++ vs⟩] := by
  induction vs generalizing m extra with
  | nil => simpa using h
  | cons w vs ih =>
    have hfront : k ∉ front.map Bucket.key := by
      have hnodup := m.nodup
      rw [h, List.map_append] at hnodup
      exact fun hmem => List.disjoint_of_nodup_append hnodup hmem (by simp)
    have hw : (m.append k w).buckets = front ++ [⟨k, v, extra ++ [w]⟩] := by
      unfold append put
      simp only [h]
      rw [putBucket_append w _ hfront, putBucket, if_pos rfl]
      rfl
    have hrest := ih hw
    rwa [List.append_assoc] at hrest

theorem buckets_appendAll {bs : List (Bucket κ β)} {m : Multimap κ β}
    (h : ((m.buckets ++ bs).map Bucket.key).Nodup) : (m.appendAll (bs.flatMap Bucket.items)).buckets = m.buckets ++ bs := by
  induction bs generalizing m with
  | nil => simp
  | cons b bs ih =>
    have hnew : b.key ∉ m.keys := by
      rw [List.map_append] at h
      exact fun hmem => List.disjoint_of_nodup_append h hmem (by simp)
    have hfirst : (m.append b.key b.value).buckets = m.buckets ++ [⟨b.key, b.value, []⟩] :=
      putBucket_of_notMem b.value _ hnew
    have hone : ((m.append b.key b.value).appendAll (b.extra.map fun v => (b.key, v))).buckets = m.buckets ++ [b] :=
      buckets_appendAll_last b.extra hfirst
    have hrest : (((m.append b.key b.value).appendAll (b.extra.map fun v => (b.key, v))).appendAll
        (bs.flatMap Bucket.items)).buckets = m.buckets ++ [b] ++ bs := by
      rw [← hone]
      exact ih (by rwa [hone, List.append_assoc])
    rw [List.append_assoc] at hrest
    rwa [List.flatMap_cons, appendAll, List.foldl_append]

/-- A multimap is that of its own pairs. -/
theorem ofItems_items (m : Multimap κ β) : ofItems m.items = m :=
  ext (buckets_appendAll (m := empty) m.nodup)

end

/-! ### First values -/

/-- The keys with their first values. -/
def heads (m : Multimap κ β) : List (κ × β) := m.buckets.map Bucket.head

theorem heads_putBucket [DecidableEq κ] (k : κ) (v : β) (bs : List (Bucket κ β)) :
    (putBucket k v (Bucket.push v) bs).map Bucket.head =
      if k ∈ bs.map Bucket.key then bs.map Bucket.head else bs.map Bucket.head ++ [(k, v)] := by
  induction bs with
  | nil => rfl
  | cons b rest ih =>
    rw [putBucket]
    split
    · rename_i hk
      rw [if_pos (by simp [hk])]
      rfl
    · rename_i hk
      rw [List.map_cons, ih]
      simp only [List.map_cons, List.mem_cons, Ne.symm hk, false_or]
      split <;> rfl

theorem heads_append [DecidableEq κ] (m : Multimap κ β) (k : κ) (v : β) :
    (m.append k v).heads = if k ∈ m.keys then m.heads else m.heads ++ [(k, v)] :=
  heads_putBucket k v m.buckets

theorem filter_items (p : κ → Bool) (m : Multimap κ β) :
    (m.items.filter fun item => p item.1) = m.buckets.flatMap fun b => if p b.key then b.items else [] := by
  unfold items
  rw [List.filter_flatMap]
  simp only [Bucket.filter_items]

theorem heads_filter_cons (p : κ → Bool) (b : Bucket κ β) (bs : List (Bucket κ β)) :
    (((b :: bs).map Bucket.head).filter fun item => p item.1) =
      (if p b.key then [b.head] else []) ++ ((bs.map Bucket.head).filter fun item => p item.1) := by
  rw [List.map_cons, List.filter_cons, Bucket.head]
  split <;> rfl

theorem length_heads_filter_le (p : κ → Bool) (bs : List (Bucket κ β)) :
    ((bs.map Bucket.head).filter fun item => p item.1).length ≤
      (bs.flatMap fun b => if p b.key then b.items else []).length := by
  induction bs with
  | nil => exact Nat.le_refl 0
  | cons b rest ih =>
    rw [heads_filter_cons, List.flatMap_cons, List.length_append, List.length_append]
    refine Nat.add_le_add ?_ ih
    split
    · exact Nat.succ_le_succ (Nat.zero_le _)
    · exact Nat.le_refl 0

/-- The first values are all values of the keys of a class if no key of it has another value. -/
theorem heads_filter_eq_iff (p : κ → Bool) (m : Multimap κ β) :
    (m.heads.filter fun item => p item.1) = (m.items.filter fun item => p item.1) ↔
      ∀ b ∈ m.buckets, p b.key → b.extra = [] := by
  rw [filter_items]
  unfold heads
  induction m.buckets with
  | nil => simp
  | cons b rest ih =>
    have hlength := length_heads_filter_le p rest
    rw [List.forall_mem_cons, ← ih, heads_filter_cons, List.flatMap_cons]
    by_cases hp : p b.key = true
    · rw [if_pos hp, if_pos hp, Bucket.items, List.cons_append, List.cons_append, List.nil_append, Bucket.head]
      constructor
      · intro h
        have htail := List.tail_eq_of_cons_eq h
        have hextra : b.extra = [] := by
          have hlen := congrArg List.length htail
          rw [List.length_append, List.length_map] at hlen
          exact List.eq_nil_of_length_eq_zero (by omega)
        exact ⟨fun _ => hextra, by rwa [hextra] at htail⟩
      · rintro ⟨hextra, hrest⟩
        rw [hextra hp, hrest]
        rfl
    · rw [if_neg hp, if_neg hp, List.nil_append, List.nil_append]
      exact (and_iff_right fun h => absurd h hp).symm

/-! ### The values of a key -/

section

variable [DecidableEq κ]

theorem getAll_eq_flatMap (m : Multimap κ β) (k : κ) :
    m.getAll k = m.buckets.flatMap fun b => if b.key = k then b.value :: b.extra else [] := by
  unfold getAll
  have hfilter := filter_items (fun key => decide (key = k)) m
  simp only [decide_eq_true_eq] at hfilter
  rw [hfilter, List.map_flatMap]
  refine List.flatMap_congr fun b _ => ?_
  split
  · simp [Bucket.items, Function.comp_def]
  · rfl

/-- The values of a key are those of its bucket. -/
theorem getAll_key {m : Multimap κ β} {b : Bucket κ β} (h : b ∈ m.buckets) : m.getAll b.key = b.value :: b.extra := by
  rw [getAll_eq_flatMap]
  have hnodup := m.nodup
  obtain ⟨front, rest, hsplit⟩ := List.append_of_mem h
  rw [hsplit, List.map_append, List.map_cons] at hnodup
  obtain ⟨-, hrest, hfront⟩ := List.nodup_append.mp hnodup
  have hnone : ∀ bs : List (Bucket κ β), (∀ c ∈ bs, c.key ≠ b.key) →
      (bs.flatMap fun c => if c.key = b.key then c.value :: c.extra else []) = [] := by
    intro bs hbs
    exact List.flatMap_eq_nil_iff.mpr fun c hc => if_neg (hbs c hc)
  rw [hsplit, List.flatMap_append, List.flatMap_cons, if_pos rfl, hnone front, hnone rest, List.nil_append, List.append_nil]
  · exact fun c hc heq => (List.nodup_cons.mp hrest).1 (heq ▸ List.mem_map_of_mem hc)
  · exact fun c hc => hfront c.key (List.mem_map_of_mem hc) b.key (List.mem_cons_self)

theorem getAll_of_notMem {m : Multimap κ β} {k : κ} (h : k ∉ m.keys) : m.getAll k = [] := by
  rw [getAll_eq_flatMap]
  refine List.flatMap_eq_nil_iff.mpr fun b hb => if_neg fun hk => h ?_
  rw [← hk]
  exact List.mem_map_of_mem hb

/-- No key of a class has more than one value. -/
theorem length_getAll_le_one_iff (p : κ → Bool) (m : Multimap κ β) :
    (∀ k, p k → (m.getAll k).length ≤ 1) ↔ ∀ b ∈ m.buckets, p b.key → b.extra = [] := by
  constructor
  · intro h b hb hp
    have hlen := h b.key hp
    rw [getAll_key hb, List.length_cons] at hlen
    exact List.eq_nil_of_length_eq_zero (by omega)
  · intro h k hp
    by_cases hk : k ∈ m.keys
    · obtain ⟨b, hb, rfl⟩ := List.mem_map.mp hk
      rw [getAll_key hb, h b hb hp]
      exact Nat.le_refl 1
    · rw [getAll_of_notMem hk]
      exact Nat.zero_le 1

end

end Multimap
