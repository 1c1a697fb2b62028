/-
  RealmCpp.Bridge.Binary
  ──────────────────────
  **`bridge::binary`: BYTES IN A BUFFER OF THEIR OWN.**

  Without the generated bridge types a `binary` is a pointer to a buffer and a size, and
  `binary.cpp` allocates, fills and frees the buffer by hand.  An assignment frees the
  buffer first, and only then looks at the other object; it does not ask whether that is
  another one.

    • `construct`, `copy`, `assign`, `destroy`, `to_vector` — the members,
    • `WellFormed` — each object owns a buffer of its size, and nothing else is allocated,
    • `handle_wellFormed` — no member touches freed memory or leaks a buffer,
    • `binary_program_iff` — the programs in which the bytes are those of vectors.
-/
import RealmCpp.Library.Buffers
import RealmCpp.Library.Client

namespace RealmCpp.Bridge

open RealmCpp.Library

/-! ## §1. The members. -/

/-- `m_data` and `m_size`. -/
structure BinaryBuffer where
  m_data : Nat
  m_size : Nat
  deriving DecidableEq

/-- The objects that were constructed, of which some are destroyed, and the heap. -/
structure Binaries where
  heap : Heap UInt8
  object : Nat → Option BinaryBuffer
  count : Nat

/-- Why a call fails: there is no such object, or memory is used that is not allocated. -/
inductive BinaryFault where
  | no_object
  | memory
  deriving DecidableEq

/-- What a program does with binaries; it numbers them as it constructs them. -/
inductive BinaryCall where
  | construct (v : List UInt8)
  | copy (j : Nat)
  | move (j : Nat)
  | assign (i j : Nat)
  | move_assign (i j : Nat)
  | destroy (i : Nat)
  | to_vector (i : Nat)

/-- What is read: bytes, of which some may not be determined. -/
abbrev BinaryAnswer := Except BinaryFault (List (Option UInt8))

namespace Binaries

variable (s : Binaries)

def start : Binaries := ⟨.empty, fun _ => none, 0⟩

def get (i : Nat) : Except BinaryFault BinaryBuffer :=
  match s.object i with
  | some b => .ok b
  | none => .error .no_object

/-- What uses memory. -/
def use (r : Option (Heap UInt8)) : Except BinaryFault Binaries :=
  match r with
  | some heap => .ok { s with heap }
  | none => .error .memory

/-- `delete[] m_data`. -/
def delete (i : Nat) : Except BinaryFault Binaries := do
  let this ← s.get i
  s.use (s.heap.free this.m_data)

/-- `m_size = size; m_data = new char[m_size]`. -/
def new (i size : Nat) : Binaries :=
  { s with
    heap := s.heap.alloc size
    object := Function.update s.object i (some ⟨s.heap.next, size⟩) }

/-- `memcpy(m_data, other.m_data, m_size)`, and `memmove`. -/
def memcpy (i j : Nat) : Except BinaryFault Binaries := do
  let this ← s.get i
  let other ← s.get j
  s.use (s.heap.copy this.m_data other.m_data this.m_size)

/-- The constructors with a vector or with data of the core, and that of an empty one. -/
def construct (v : List UInt8) : Except BinaryFault Binaries := do
  let i := s.count
  let s := { s.new i v.length with count := i + 1 }
  let this ← s.get i
  s.use (s.heap.store this.m_data (v.map some))

/-- The copy constructor; that with a `binary&&` copies as well. -/
def copy (j : Nat) : Except BinaryFault Binaries := do
  let i := s.count
  let other ← s.get j
  let s := { s.new i other.m_size with count := i + 1 }
  s.memcpy i j

/-- `operator=`; that with a `binary&&` is the same. -/
def assign (i j : Nat) : Except BinaryFault Binaries := do
  let _ ← s.get j
  let s ← s.delete i
  -- the size and the address are read now, from an object that may be this one
  let other ← s.get j
  let s := s.new i other.m_size
  s.memcpy i j

def destroy (i : Nat) : Except BinaryFault Binaries := do
  let s ← s.delete i
  pure { s with object := Function.update s.object i none }

/-- `operator std::vector`, with `operator[]` of each index. -/
def to_vector (i : Nat) : BinaryAnswer := do
  let this ← s.get i
  match s.heap.block this.m_data with
  | some bs => if this.m_size ≤ bs.length then .ok (bs.take this.m_size) else .error .memory
  | none => .error .memory

/-- A call that changes the objects; one that fails leaves them. -/
def answer (r : Except BinaryFault Binaries) : BinaryAnswer × Binaries :=
  match r with
  | .ok s' => (.ok [], s')
  | .error e => (.error e, s)

def handle : (c : BinaryCall) → BinaryAnswer × Binaries
  | .construct v => s.answer (s.construct v)
  | .copy j | .move j => s.answer (s.copy j)
  | .assign i j | .move_assign i j => s.answer (s.assign i j)
  | .destroy i => s.answer (s.destroy i)
  | .to_vector i => (s.to_vector i, s)

end Binaries

/-! ## §2. Vectors. -/

/-- Vectors in place of the binaries, where a move copies too. -/
structure Vectors where
  object : Nat → Option (List UInt8)
  count : Nat

namespace Vectors

variable (t : Vectors)

def start : Vectors := ⟨fun _ => none, 0⟩

/-- Object `i` becomes a copy of `v`, if that is there. -/
def put (i count : Nat) (v : Option (List UInt8)) : BinaryAnswer × Vectors :=
  match v with
  | some v => (.ok [], ⟨Function.update t.object i (some v), count⟩)
  | none => (.error .no_object, t)

def destroy (i : Nat) : BinaryAnswer × Vectors :=
  match t.object i with
  | some _ => (.ok [], ⟨Function.update t.object i none, t.count⟩)
  | none => (.error .no_object, t)

def to_vector (i : Nat) : BinaryAnswer :=
  match t.object i with
  | some v => .ok (v.map some)
  | none => .error .no_object

def handle : (c : BinaryCall) → BinaryAnswer × Vectors
  | .construct v => t.put t.count (t.count + 1) (some v)
  | .copy j | .move j => t.put t.count (t.count + 1) (t.object j)
  | .assign i j | .move_assign i j => t.put i t.count ((t.object i).bind fun _ => t.object j)
  | .destroy i => t.destroy i
  | .to_vector i => (t.to_vector i, t)

end Vectors

/-! ## §3. Whole and safe. -/

namespace Binaries

/-- Who owns which buffer. -/
def owner (s : Binaries) (i : Nat) : Option Nat := (s.object i).map BinaryBuffer.m_data

/-- The bytes of an object. -/
def contents (s : Binaries) (i : Nat) : Option (List (Option UInt8)) :=
  (s.object i).bind fun b => s.heap.block b.m_data

/-- **Each object owns a buffer of its size, and every buffer is owned.** -/
structure WellFormed (s : Binaries) : Prop where
  owned : Owned s.heap.Allocated s.owner
  sized : ∀ i b, s.object i = some b → ∃ bs, s.heap.block b.m_data = some bs ∧
    bs.length = b.m_size
  unborn : ∀ i, s.count ≤ i → s.object i = none

variable {s : Binaries}

theorem wellFormed_start : start.WellFormed where
  owned := Owned.empty fun p ⟨bs, hbs⟩ => by cases hbs
  sized _ _ h := by cases h
  unborn _ _ := rfl

theorem owner_eq_update {s' : Binaries} {i : Nat} {b : Option BinaryBuffer}
    (hobject : ∀ j, s'.object j = if j = i then b else s.object j) :
    s'.owner = Function.update s.owner i (b.map BinaryBuffer.m_data) := by
  funext j
  unfold owner
  rw [hobject, Function.update_apply]
  split <;> rfl

variable (s) in
/-- Object `i` has a buffer of the heap. -/
def withBuffer (heap : Heap UInt8) (i address size count : Nat) : Binaries :=
  ⟨heap, Function.update s.object i (some ⟨address, size⟩), count⟩

variable (s) in
/-- Object `i` is destroyed. -/
def withoutBuffer (heap : Heap UInt8) (i : Nat) : Binaries :=
  ⟨heap, Function.update s.object i none, s.count⟩

/-- **An object with a new buffer** that holds `bs`, where the heap `h` before has the
buffers of the others only. -/
theorem placed (hs : s.WellFormed) {i n : Nat} {h h' : Heap UInt8} {bs : List (Option UInt8)}
    (ho : Owned h.Allocated (Function.update s.owner i none))
    (hkeep : ∀ j b, j ≠ i → s.object j = some b → h.block b.m_data = s.heap.block b.m_data)
    (hblock : ∀ q, h'.block q = if q = h.next then some bs else h.block q)
    (hi : i < n) (hn : s.count ≤ n) :
    (s.withBuffer h' i h.next bs.length n).WellFormed ∧
      ∀ j, (s.withBuffer h' i h.next bs.length n).contents j =
        if j = i then some bs else s.contents j := by
  have hobject : ∀ j, (s.withBuffer h' i h.next bs.length n).object j =
      if j = i then some ⟨h.next, bs.length⟩ else s.object j := fun j => Function.update_apply ..
  -- the buffers of the others are where they were
  have hother : ∀ j b, j ≠ i → s.object j = some b →
      h'.block b.m_data = s.heap.block b.m_data := by
    intro j b hji hb
    obtain ⟨cs, hcs, -⟩ := hs.sized j b hb
    have hne : b.m_data ≠ h.next := by
      intro heq
      have hold := hkeep j b hji hb
      rw [heq, h.block_next, ← heq, hcs] at hold
      cases hold
    rw [hblock, if_neg hne, hkeep j b hji hb]
  refine ⟨⟨?_, ?_, ?_⟩, ?_⟩
  · -- the new buffer is allocated for the object, and filled
    have halloc := ho.alloc (Function.update_self i none s.owner) bs.length
    have hfilled : ∀ q, h'.block q =
        if q = h.next then some bs else (h.alloc bs.length).block q := by
      intro q
      rw [hblock, Heap.block_alloc]
      split <;> rfl
    have howned := halloc.store (by rw [Heap.block_alloc, if_pos rfl]) hfilled
    rw [Function.update_idem] at howned
    exact owner_eq_update hobject ▸ howned
  · intro j b hb
    rw [hobject] at hb
    split at hb
    · obtain rfl := Option.some.inj hb
      exact ⟨bs, (hblock h.next).trans (if_pos rfl), rfl⟩
    · next hji =>
      obtain ⟨cs, hcs, hlength⟩ := hs.sized j b hb
      exact ⟨cs, (hother j b hji hb).trans hcs, hlength⟩
  · intro j hj
    have hj' : n ≤ j := hj
    rw [hobject, if_neg (by omega)]
    exact hs.unborn j (by omega)
  · intro j
    unfold contents
    rw [hobject]
    split
    · exact (hblock h.next).trans (if_pos rfl)
    · next hji =>
      cases hb : s.object j with
      | none => rfl
      | some b => exact hother j b hji hb

/-- The owners, where the object owns none yet. -/
theorem WellFormed.owned_unborn (hs : s.WellFormed) :
    Owned s.heap.Allocated (Function.update s.owner s.count none) := by
  have hnone : s.owner s.count = none := by
    unfold owner
    rw [hs.unborn s.count (Nat.le_refl _)]
    rfl
  rw [Function.update_eq_self_iff.mpr hnone.symm]
  exact hs.owned

/-- An object is constructed from bytes. -/
theorem construct_spec (hs : s.WellFormed) (v : List UInt8) :
    ∃ s', s.construct v = .ok s' ∧ s'.WellFormed ∧ s'.count = s.count + 1 ∧
      ∀ j, s'.contents j = if j = s.count then some (v.map some) else s.contents j := by
  have hnew : (s.heap.alloc v.length).block s.heap.next = some (List.replicate v.length none) := by
    rw [Heap.block_alloc, if_pos rfl]
  have hlength : (List.replicate v.length (none : Option UInt8)).length = (v.map some).length := by
    simp
  obtain ⟨h', hstore, -, hblock⟩ := Heap.exists_store hnew hlength
  have hfilled : ∀ q, h'.block q =
      if q = s.heap.next then some (v.map some) else s.heap.block q := by
    intro q
    rw [hblock, Heap.block_alloc]
    split <;> rfl
  obtain ⟨hwell, hcontents⟩ := placed hs hs.owned_unborn (fun _ _ _ _ => rfl) hfilled
    (Nat.lt_succ_self s.count) (Nat.le_succ _)
  rw [List.length_map] at hwell hcontents
  refine ⟨_, ?_, hwell, rfl, hcontents⟩
  unfold construct
  simp only [new, get, Function.update_self, bind, Except.bind, use, hstore]
  rfl

/-- An object is constructed from another one. -/
theorem copy_spec (hs : s.WellFormed) {j : Nat} {bs : List (Option UInt8)}
    (hj : s.contents j = some bs) :
    ∃ s', s.copy j = .ok s' ∧ s'.WellFormed ∧ s'.count = s.count + 1 ∧
      ∀ k, s'.contents k = if k = s.count then some bs else s.contents k := by
  obtain ⟨b, hb, hblock⟩ := Option.bind_eq_some_iff.mp hj
  obtain ⟨cs, hcs, hsize⟩ := hs.sized j b hb
  obtain rfl := Option.some.inj (hblock.symm.trans hcs)
  -- what is copied is older than the copy
  have hjcount : j ≠ s.count := by
    rintro rfl
    rw [hs.unborn s.count (Nat.le_refl _)] at hb
    cases hb
  have hnext : b.m_data ≠ s.heap.next := by
    intro heq
    rw [heq, s.heap.block_next] at hblock
    cases hblock
  have hnew : (s.heap.alloc b.m_size).block s.heap.next = some (List.replicate b.m_size none) := by
    rw [Heap.block_alloc, if_pos rfl]
  have hold : (s.heap.alloc b.m_size).block b.m_data = some bs := by
    rw [Heap.block_alloc, if_neg hnext, hblock]
  obtain ⟨h', hcopy, -, hblock'⟩ := Heap.exists_copy hnew hold (by simp [hsize])
  have hfilled : ∀ q, h'.block q = if q = s.heap.next then some bs else s.heap.block q := by
    intro q
    rw [hblock', Heap.block_alloc]
    split <;> rfl
  obtain ⟨hwell, hcontents⟩ := placed hs hs.owned_unborn (fun _ _ _ _ => rfl) hfilled
    (Nat.lt_succ_self s.count) (Nat.le_succ _)
  rw [hsize] at hwell hcontents hcopy
  refine ⟨_, ?_, hwell, rfl, hcontents⟩
  unfold copy memcpy
  simp only [new, get, hb, Function.update_self, Function.update_of_ne hjcount, bind, Except.bind,
    use, hcopy]
  rfl

theorem WellFormed.lt_count (hs : s.WellFormed) {i : Nat} {b : BinaryBuffer}
    (hb : s.object i = some b) : i < s.count := by
  by_contra hi
  rw [hs.unborn i (by omega)] at hb
  cases hb

/-- What `delete[]` leaves: the buffers of the others. -/
theorem delete_spec (hs : s.WellFormed) {i : Nat} {b : BinaryBuffer}
    (hb : s.object i = some b) :
    ∃ h, s.delete i = .ok { s with heap := h } ∧
      Owned h.Allocated (Function.update s.owner i none) ∧
      ∀ j c, j ≠ i → s.object j = some c → h.block c.m_data = s.heap.block c.m_data := by
  obtain ⟨bs, hbs, -⟩ := hs.sized i b hb
  obtain ⟨h, hfree, -, hblock⟩ := Heap.exists_free hbs
  have howner : s.owner i = some b.m_data := congrArg (Option.map BinaryBuffer.m_data) hb
  refine ⟨h, ?_, hs.owned.free howner hblock, ?_⟩
  · unfold delete
    simp only [get, hb, bind, Except.bind, use, hfree]
  · intro j c hji hc
    -- no two objects own one buffer
    have hne : c.m_data ≠ b.m_data := by
      intro heq
      have hj : s.owner j = some b.m_data := heq ▸ congrArg (Option.map BinaryBuffer.m_data) hc
      exact hji (hs.owned.one j i b.m_data hj howner)
    rw [hblock, if_neg hne]

/-- **An assignment** leaves the bytes of the other object, and if that is the same one,
bytes that are not determined. -/
theorem assign_spec (hs : s.WellFormed) {i j : Nat} {b : BinaryBuffer} (hb : s.object i = some b)
    {bs : List (Option UInt8)} (hj : s.contents j = some bs) :
    ∃ s', s.assign i j = .ok s' ∧ s'.WellFormed ∧ s'.count = s.count ∧
      ∀ k, s'.contents k =
        if k = i then some (if i = j then List.replicate bs.length none else bs)
        else s.contents k := by
  obtain ⟨c, hc, hblock⟩ := Option.bind_eq_some_iff.mp hj
  obtain ⟨cs, hcs, hsize⟩ := hs.sized j c hc
  obtain rfl := Option.some.inj (hblock.symm.trans hcs)
  obtain ⟨h, hdelete, howned, hkeep⟩ := delete_spec hs hb
  have hnew : (h.alloc c.m_size).block h.next = some (List.replicate c.m_size none) := by
    rw [Heap.block_alloc, if_pos rfl]
  -- the buffer of the other object, which is the new one if it is the same
  obtain ⟨src, hsrc, hget⟩ : ∃ src,
      (h.alloc c.m_size).block src =
          some (if i = j then List.replicate bs.length none else bs) ∧
        Function.update s.object i (some ⟨h.next, c.m_size⟩) j = some ⟨src, c.m_size⟩ := by
    by_cases hij : i = j
    · subst hij
      exact ⟨h.next, by rw [hnew, if_pos rfl, hsize], Function.update_self ..⟩
    · have hold : h.block c.m_data = some bs := (hkeep j c (Ne.symm hij) hc).trans hblock
      have hne : c.m_data ≠ h.next := by
        intro heq
        rw [heq, h.block_next] at hold
        cases hold
      refine ⟨c.m_data, ?_, ?_⟩
      · rw [Heap.block_alloc, if_neg hne, if_neg hij, hold]
      · rw [Function.update_of_ne (Ne.symm hij), hc]
  have hlength : (if i = j then List.replicate bs.length none else bs).length = c.m_size := by
    split
    · rw [List.length_replicate, hsize]
    · exact hsize
  obtain ⟨h', hcopy, -, hcopied⟩ := Heap.exists_copy hnew hsrc
    (by rw [hlength, List.length_replicate])
  have hfilled : ∀ q, h'.block q =
      if q = h.next then some (if i = j then List.replicate bs.length none else bs)
      else h.block q := by
    intro q
    rw [hcopied, Heap.block_alloc]
    split <;> rfl
  obtain ⟨hwell, hcontents⟩ := placed hs howned hkeep hfilled (hs.lt_count hb) (Nat.le_refl _)
  rw [hlength] at hwell hcontents hcopy
  refine ⟨_, ?_, hwell, rfl, hcontents⟩
  unfold assign memcpy
  simp only [hdelete, new, get, hc, hget, Function.update_self, bind, Except.bind, use, hcopy]
  rfl

theorem destroy_spec (hs : s.WellFormed) {i : Nat} {b : BinaryBuffer}
    (hb : s.object i = some b) :
    ∃ s', s.destroy i = .ok s' ∧ s'.WellFormed ∧ s'.count = s.count ∧
      ∀ k, s'.contents k = if k = i then none else s.contents k := by
  obtain ⟨h, hdelete, howned, hkeep⟩ := delete_spec hs hb
  have hobject : ∀ j, (s.withoutBuffer h i).object j = if j = i then none else s.object j :=
    fun j => Function.update_apply ..
  refine ⟨s.withoutBuffer h i, ?_, ⟨?_, ?_, ?_⟩, rfl, ?_⟩
  · unfold destroy
    simp only [hdelete, bind, Except.bind, pure, Except.pure]
    rfl
  · exact owner_eq_update hobject ▸ howned
  · intro j c hc
    rw [hobject] at hc
    split at hc
    · cases hc
    · next hji =>
      obtain ⟨cs, hcs, hlength⟩ := hs.sized j c hc
      exact ⟨cs, (hkeep j c hji hc).trans hcs, hlength⟩
  · intro j hj
    rw [hobject]
    split
    · rfl
    · exact hs.unborn j hj
  · intro k
    unfold contents
    rw [hobject]
    split
    · rfl
    · next hki =>
      cases hc : s.object k with
      | none => rfl
      | some c => exact hkeep k c hki hc

theorem to_vector_spec (hs : s.WellFormed) {i : Nat} {bs : List (Option UInt8)}
    (hi : s.contents i = some bs) : s.to_vector i = .ok bs := by
  obtain ⟨b, hb, hblock⟩ := Option.bind_eq_some_iff.mp hi
  obtain ⟨cs, hcs, hsize⟩ := hs.sized i b hb
  obtain rfl := Option.some.inj (hblock.symm.trans hcs)
  unfold to_vector
  simp only [get, hb, bind, Except.bind, hblock, ← hsize, Nat.le_refl, if_true, List.take_length]

theorem contents_eq_none_iff (hs : s.WellFormed) {i : Nat} :
    s.contents i = none ↔ s.object i = none := by
  unfold contents
  cases hb : s.object i with
  | none => simp
  | some b =>
    obtain ⟨bs, hbs, -⟩ := hs.sized i b hb
    simp [hbs]

/-- What fails for want of an object. -/
theorem copy_none {j : Nat} (hj : s.object j = none) : s.copy j = .error .no_object := by
  unfold copy
  simp only [get, hj, bind, Except.bind]

theorem assign_none_right {i j : Nat} (hj : s.object j = none) :
    s.assign i j = .error .no_object := by
  unfold assign
  simp only [get, hj, bind, Except.bind]

theorem assign_none_left {i j : Nat} {c : BinaryBuffer} (hj : s.object j = some c)
    (hi : s.object i = none) : s.assign i j = .error .no_object := by
  unfold assign delete
  simp only [get, hj, hi, bind, Except.bind]

theorem destroy_none {i : Nat} (hi : s.object i = none) : s.destroy i = .error .no_object := by
  unfold destroy delete
  simp only [get, hi, bind, Except.bind]

theorem to_vector_none {i : Nat} (hi : s.object i = none) :
    s.to_vector i = .error .no_object := by
  unfold to_vector
  simp only [get, hi, bind, Except.bind]

/-! ## §4. Beside vectors. -/

/-- **The objects hold the bytes of the vectors**, all of them determined. -/
structure Represents (s : Binaries) (t : Vectors) : Prop where
  wellFormed : s.WellFormed
  count : s.count = t.count
  contents : ∀ i, s.contents i = (t.object i).map (List.map some)

variable {t : Vectors}

theorem represents_start : Represents start Vectors.start := ⟨wellFormed_start, rfl, fun _ => rfl⟩

theorem Represents.object_none (h : Represents s t) {i : Nat} (hi : t.object i = none) :
    s.object i = none := by
  rw [← contents_eq_none_iff h.wellFormed, h.contents, hi]
  rfl

theorem Represents.object_some (h : Represents s t) {i : Nat} {v : List UInt8}
    (hi : t.object i = some v) :
    ∃ b, s.object i = some b ∧ s.contents i = some (v.map some) := by
  have hcontents := h.contents i
  rw [hi] at hcontents
  cases hb : s.object i with
  | none =>
    rw [(contents_eq_none_iff h.wellFormed).mpr hb] at hcontents
    cases hcontents
  | some b => exact ⟨b, rfl, hcontents⟩

theorem Represents.put (h : Represents s t) {s' : Binaries} {i n : Nat} {v : List UInt8}
    (hwell : s'.WellFormed) (hcount : s'.count = n)
    (hcontents : ∀ j, s'.contents j = if j = i then some (v.map some) else s.contents j) :
    Represents s' ⟨Function.update t.object i (some v), n⟩ := by
  refine ⟨hwell, hcount, fun j => ?_⟩
  show s'.contents j = (Function.update t.object i (some v) j).map _
  rw [hcontents, Function.update_apply, h.contents]
  split <;> rfl

@[simp] theorem answer_ok (s' : Binaries) : s.answer (.ok s') = (.ok [], s') := rfl

@[simp] theorem put_some (i n : Nat) (v : List UInt8) :
    t.put i n (some v) = (.ok [], ⟨Function.update t.object i (some v), n⟩) := rfl

/-- What a call needs: that nothing is assigned to itself, unless it is empty. -/
def BinaryMeets (st : Binaries × Vectors) : BinaryCall → Prop
  | .assign i j | .move_assign i j => i = j → ∀ v, st.2.object i = some v → v = []
  | _ => True

theorem copy_agrees (h : Represents s t) (j : Nat) :
    (s.answer (s.copy j)).1 = (t.put t.count (t.count + 1) (t.object j)).1 ∧
      Represents (s.answer (s.copy j)).2 (t.put t.count (t.count + 1) (t.object j)).2 := by
  cases hj : t.object j with
  | none =>
    rw [copy_none (h.object_none hj)]
    exact ⟨rfl, h⟩
  | some v =>
    obtain ⟨b, -, hcontents⟩ := h.object_some hj
    obtain ⟨s', hcopy, hwell, hcount, hafter⟩ := copy_spec h.wellFormed hcontents
    rw [hcopy]
    rw [h.count] at hafter hcount
    exact ⟨rfl, h.put hwell hcount hafter⟩

theorem assign_agrees_iff (h : Represents s t) (i j : Nat) :
    ((s.answer (s.assign i j)).1 =
          (t.put i t.count ((t.object i).bind fun _ => t.object j)).1 ∧
        Represents (s.answer (s.assign i j)).2
          (t.put i t.count ((t.object i).bind fun _ => t.object j)).2) ↔
      (i = j → ∀ v, t.object i = some v → v = []) := by
  cases hj : t.object j with
  | none =>
    have hnone : ((t.object i).bind fun _ => (none : Option (List UInt8))) = none := by
      cases t.object i <;> rfl
    rw [assign_none_right (h.object_none hj), hnone]
    refine iff_of_true ⟨rfl, h⟩ fun hij v hv => ?_
    rw [hij, hj] at hv
    cases hv
  | some v =>
    obtain ⟨c, hc, hcontents⟩ := h.object_some hj
    cases hi : t.object i with
    | none =>
      rw [assign_none_left hc (h.object_none hi)]
      exact iff_of_true ⟨rfl, h⟩ fun _ v hv => by cases hv
    | some w =>
      obtain ⟨b, hb, -⟩ := h.object_some hi
      obtain ⟨s', hassign, hwell, hcount, hafter⟩ := assign_spec h.wellFormed hb hcontents
      rw [hassign, Option.bind_some, put_some, answer_ok]
      by_cases hij : i = j
      · -- the bytes are gone, if there are any
        have hwv : w = v := Option.some.inj (hi.symm.trans (hij ▸ hj))
        constructor
        · intro hagrees _ x hx
          have hlost : _ = (Function.update t.object i (some v) i).map (List.map some) :=
            (hafter i).symm.trans (hagrees.2.contents i)
          rw [if_pos rfl, if_pos hij, List.length_map, Function.update_self] at hlost
          have hlist : List.replicate v.length none = v.map some := Option.some.inj hlost
          rw [← Option.some.inj hx, hwv]
          cases v with
          | nil => rfl
          | cons x v => cases (List.cons.inj hlist).1
        · intro hempty
          have hv : v = [] := hwv ▸ hempty hij w rfl
          subst hv
          refine ⟨rfl, h.put hwell (hcount.trans h.count) fun k => ?_⟩
          rw [hafter, if_pos hij]
          rfl
      · refine iff_of_true ⟨rfl, h.put hwell (hcount.trans h.count) fun k => ?_⟩
          fun heq => absurd heq hij
        rw [hafter, if_neg hij]

theorem call_agrees_iff (s : Binaries) (t : Vectors) (c : BinaryCall) (h : Represents s t) :
    Client.AgreesAt handle Vectors.handle Represents (s, t) c ↔ BinaryMeets (s, t) c := by
  cases c with
  | construct v =>
    refine iff_of_true ?_ trivial
    obtain ⟨s', hconstruct, hwell, hcount, hafter⟩ := construct_spec h.wellFormed v
    show (s.answer (s.construct v)).1 = _ ∧ Represents (s.answer (s.construct v)).2 _
    rw [hconstruct]
    rw [h.count] at hafter hcount
    exact ⟨rfl, h.put hwell hcount hafter⟩
  | copy j | move j => exact iff_of_true (copy_agrees h j) trivial
  | assign i j | move_assign i j => exact assign_agrees_iff h i j
  | destroy i =>
    refine iff_of_true ?_ trivial
    show (s.answer (s.destroy i)).1 = (t.destroy i).1 ∧
      Represents (s.answer (s.destroy i)).2 (t.destroy i).2
    unfold Vectors.destroy
    cases hi : t.object i with
    | none =>
      rw [destroy_none (h.object_none hi)]
      exact ⟨rfl, h⟩
    | some v =>
      obtain ⟨b, hb, -⟩ := h.object_some hi
      obtain ⟨s', hdestroy, hwell, hcount, hafter⟩ := destroy_spec h.wellFormed hb
      rw [hdestroy]
      refine ⟨rfl, hwell, hcount.trans h.count, fun k => ?_⟩
      show s'.contents k = (Function.update t.object i none k).map _
      rw [hafter, Function.update_apply, h.contents]
      split <;> rfl
  | to_vector i =>
    refine iff_of_true ?_ trivial
    show s.to_vector i = t.to_vector i ∧ Represents s t
    unfold Vectors.to_vector
    cases hi : t.object i with
    | none => exact ⟨to_vector_none (h.object_none hi), h⟩
    | some v =>
      obtain ⟨b, -, hcontents⟩ := h.object_some hi
      exact ⟨to_vector_spec h.wellFormed hcontents, h⟩

/-! ## §5. Programs. -/

/-- **No call uses memory that is not allocated**, and each leaves every buffer to one
object. -/
theorem handle_wellFormed (s : Binaries) (c : BinaryCall) (hs : s.WellFormed) :
    (s.handle c).1 ≠ .error .memory ∧ (s.handle c).2.WellFormed := by
  have hok : ∀ {r s'}, r = .ok s' → s'.WellFormed →
      (s.answer r).1 ≠ .error .memory ∧ (s.answer r).2.WellFormed := by
    rintro r s' rfl hs'
    exact ⟨nofun, hs'⟩
  have hmissing : ∀ {r}, r = .error .no_object →
      (s.answer r).1 ≠ .error .memory ∧ (s.answer r).2.WellFormed := by
    rintro r rfl
    exact ⟨nofun, hs⟩
  cases c with
  | construct v =>
    obtain ⟨s', hconstruct, hwell, -⟩ := construct_spec hs v
    exact hok hconstruct hwell
  | copy j | move j =>
    cases hj : s.contents j with
    | none => exact hmissing (copy_none ((contents_eq_none_iff hs).mp hj))
    | some bs =>
      obtain ⟨s', hcopy, hwell, -⟩ := copy_spec hs hj
      exact hok hcopy hwell
  | assign i j | move_assign i j =>
    cases hj : s.contents j with
    | none => exact hmissing (assign_none_right ((contents_eq_none_iff hs).mp hj))
    | some bs =>
      cases hi : s.object i with
      | none =>
        obtain ⟨c, hc, -⟩ := Option.bind_eq_some_iff.mp hj
        exact hmissing (assign_none_left hc hi)
      | some b =>
        obtain ⟨s', hassign, hwell, -⟩ := assign_spec hs hi hj
        exact hok hassign hwell
  | destroy i =>
    cases hi : s.object i with
    | none => exact hmissing (destroy_none hi)
    | some b =>
      obtain ⟨s', hdestroy, hwell, -⟩ := destroy_spec hs hi
      exact hok hdestroy hwell
  | to_vector i =>
    -- a buffer has the size of its object, so that no byte behind it is read
    refine ⟨?_, hs⟩
    show s.to_vector i ≠ _
    cases hi : s.contents i with
    | none =>
      rw [to_vector_none ((contents_eq_none_iff hs).mp hi)]
      nofun
    | some bs =>
      rw [to_vector_spec hs hi]
      nofun

variable {ρ : Type}

/-- **Programs with binaries.**  None uses memory that is not allocated, and each leaves
the heap to the objects that are not destroyed, one buffer for each.  The bytes are those
of vectors, call by call, exactly in the programs that assign no binary to itself unless it
is empty. -/
theorem binary_program_iff (p : Client BinaryCall (fun _ => BinaryAnswer) ρ) :
    (p.Along handle (fun s c => (s.handle c).1 ≠ .error .memory) start ∧
        Owned (p.run handle start).2.heap.Allocated (p.run handle start).2.owner) ∧
      (p.Along (Client.beside handle Vectors.handle)
          (Client.AgreesAt handle Vectors.handle Represents) (start, Vectors.start) ↔
        p.Along (Client.beside handle Vectors.handle) BinaryMeets (start, Vectors.start)) ∧
      (p.Along (Client.beside handle Vectors.handle) BinaryMeets (start, Vectors.start) →
        (p.run handle start).1 = (p.run Vectors.handle Vectors.start).1 ∧
          Represents (p.run handle start).2 (p.run Vectors.handle Vectors.start).2) := by
  obtain ⟨hsafe, hwell⟩ := Client.along_of_invariant handle_wellFormed p wellFormed_start
  obtain ⟨hiff, hend⟩ :=
    Client.along_agreesAt_iff (R := Represents) call_agrees_iff p represents_start
  exact ⟨⟨hsafe, hwell.owned⟩, hiff, hend⟩

end Binaries

end RealmCpp.Bridge
