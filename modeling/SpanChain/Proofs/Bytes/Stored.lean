/-
**Bytes stored at a row of addresses.**

A write through a chain stores its bytes at addresses that need not follow one another, and the same
address may come more than once.  What it leaves in the memory is told by the row of addresses and
the row of bytes alone; where the pieces began and ended no longer matters.

Main definitions:

* `SpanChain.Memory.storeAt` — bytes stored one after the other, each at an address of its own;
* `SpanChain.Memory.Fetched` — bytes read from some addresses while bytes are stored at others.

Main results:

* `SpanChain.Memory.store_eq_storeAt` — a piece is stored at the addresses behind its start;
* `SpanChain.Memory.load_eq_map` — and read from them;
* `SpanChain.Memory.isSome_index?_of_holds` — the addresses of a span that lies in the memory are
  inside;
* `SpanChain.Memory.get_storeAt_of_notMem`, `SpanChain.Memory.map_get_storeAt` — what is seen at
  other addresses, and at the addresses themselves if they are distinct and inside;
* `SpanChain.Memory.Fetched.append` — **piece by piece** the bytes are fetched as they would be all at
  once.
-/

import SpanChain.Buffer.Copy

set_option relaxedAutoImplicit false
set_option autoImplicit false

namespace SpanChain

namespace Memory

variable {mem : Memory} {a : Address} {src src' dst dst' : List Address} {bs bs' : List UInt8}
  {i k : Nat}

/-! ### Storing -/

/-- The memory with bytes stored one after the other, each at the address at its place.  What is
left over of the longer row is ignored. -/
def storeAt (mem : Memory) : List Address → List UInt8 → Memory
  | a :: dst, b :: bs => (mem.set a b).storeAt dst bs
  | _, _ => mem

@[simp] theorem storeAt_nil : mem.storeAt dst [] = mem := by
  cases dst <;> rfl

/-- A row of bytes is stored at the addresses behind its start. -/
theorem store_eq_storeAt (hk : bs.length ≤ k) :
    mem.store a bs = mem.storeAt ((List.range k).map (a + ·)) bs := by
  induction bs generalizing mem a k with
  | nil => rw [storeAt_nil, store]
  | cons b bs ih =>
      cases k with
      | zero => contradiction
      | succ k =>
          have hstep : (fun i => a + i) ∘ Nat.succ = fun i => a + 1 + i := by
            funext i
            rw [Address.add_add, Nat.add_comm 1 i]
            rfl
          rw [List.range_succ_eq_map, List.map_cons, List.map_map, hstep, Address.add_zero, store,
            storeAt]
          exact ih (Nat.le_of_succ_le_succ hk)

theorem storeAt_append (h : dst.length = bs.length) :
    mem.storeAt (dst ++ dst') (bs ++ bs') = (mem.storeAt dst bs).storeAt dst' bs' := by
  induction dst generalizing mem bs with
  | nil =>
      obtain rfl := List.eq_nil_of_length_eq_zero h.symm
      rfl
  | cons a dst ih =>
      cases bs with
      | nil => contradiction
      | cons b bs => exact ih (Nat.succ.inj h)

/-! ### Reading what was stored -/

/-- A piece is read from the addresses behind its start. -/
theorem load_eq_map : mem.load a k = ((List.range k).map (a + ·)).map mem.get := by
  rw [List.map_map]
  rfl

theorem size_storeAt : (mem.storeAt dst bs).bytes.size = mem.bytes.size := by
  induction dst generalizing mem bs with
  | nil => rfl
  | cons a dst ih =>
      cases bs with
      | nil => rfl
      | cons b bs => rw [storeAt, ih, size_set]

theorem index?_set (b : UInt8) (a' : Address) : (mem.set a b).index? a' = mem.index? a' := by
  cases a' <;> simp [index?]

/-- The addresses of a span that lies in the memory are inside. -/
theorem isSome_index?_of_holds {r : Span} (h : mem.holds r = true) (ha : a ∈ r.addresses) :
    (mem.index? a).isSome := by
  obtain ⟨j, hj, rfl⟩ : ∃ j < r.len, r.base + j = a := by simpa [Span.addresses] using ha
  cases hbase : r.base with
  | absolute x => simp [holds, hbase] at h
  | inMemory x =>
      have hfits : x.toNat + r.len ≤ mem.bytes.size := by simpa [holds, hbase] using h
      -- an offset that wraps around is all the smaller
      have hle : (x + UInt64.ofNat j).toNat ≤ x.toNat + j := by
        rw [UInt64.toNat_add, UInt64.toNat_ofNat']
        omega
      have hlt : (x + UInt64.ofNat j).toNat < mem.bytes.size := by omega
      simp only [Address.inMemory_add, index?, if_pos hlt, Option.isSome_some]

/-- Other addresses keep their bytes. -/
theorem get_storeAt_of_notMem (ha : a ∉ dst) : (mem.storeAt dst bs).get a = mem.get a := by
  induction dst generalizing mem bs with
  | nil => rfl
  | cons c dst ih =>
      obtain ⟨hac, ha⟩ := List.ne_and_not_mem_of_not_mem_cons ha
      cases bs with
      | nil => rfl
      | cons b bs => rw [storeAt, ih ha, get_set, if_neg fun h => hac h.1]

/-- Distinct addresses inside the memory show the bytes that were stored there. -/
theorem map_get_storeAt (h : dst.length = bs.length) (hnodup : dst.Nodup)
    (hin : ∀ a ∈ dst, (mem.index? a).isSome) : dst.map (mem.storeAt dst bs).get = bs := by
  induction dst generalizing mem bs with
  | nil => exact (List.eq_nil_of_length_eq_zero h.symm).symm
  | cons a dst ih =>
      obtain ⟨ha, hnodup⟩ := List.nodup_cons.1 hnodup
      obtain ⟨hina, hin⟩ := List.forall_mem_cons.1 hin
      cases bs with
      | nil => contradiction
      | cons b bs =>
          have hin' : ∀ a' ∈ dst, ((mem.set a b).index? a').isSome := fun a' ha' => by
            rw [index?_set]
            exact hin a' ha'
          rw [List.map_cons, storeAt, ih (Nat.succ.inj h) hnodup hin', get_storeAt_of_notMem ha,
            get_set, if_pos ⟨rfl, hina⟩]

/-! ### Fetching while storing -/

/-- The bytes `bs` were fetched from the addresses `src`, one from each, while bytes were stored at
the addresses `dst`.  Unless the two have an address in common, they are the bytes that were there
before. -/
structure Fetched (mem : Memory) (src dst : List Address) (bs : List UInt8) : Prop where
  length : bs.length = src.length
  eq_map : (∀ a ∈ src, a ∉ dst) → bs = src.map mem.get

theorem fetched_map : mem.Fetched src dst (src.map mem.get) := ⟨List.length_map .., fun _ => rfl⟩

/-- From equally many addresses as there are to store at, as many bytes are fetched. -/
theorem Fetched.length_take (h : mem.Fetched (src.take k) (dst.take k) bs) (hsrc : k ≤ src.length)
    (hdst : k ≤ dst.length) : (dst.take k).length = bs.length := by
  rw [h.length, List.length_take_of_le hsrc, List.length_take_of_le hdst]

/-- What is fetched after a first piece has been stored is the rest. -/
theorem Fetched.append (h : mem.Fetched src dst bs)
    (h' : (mem.storeAt dst bs).Fetched src' dst' bs') :
    mem.Fetched (src ++ src') (dst ++ dst') (bs ++ bs') := by
  refine ⟨by rw [List.length_append, List.length_append, h.length, h'.length], fun hapart => ?_⟩
  have hsrc : ∀ a ∈ src, a ∉ dst := fun a ha hd =>
    hapart a (List.mem_append_left _ ha) (List.mem_append_left _ hd)
  have hsrc' : ∀ a ∈ src', a ∉ dst' := fun a ha hd =>
    hapart a (List.mem_append_right _ ha) (List.mem_append_right _ hd)
  -- the rest of the addresses read from is not written to by the first piece
  have hkept : src'.map (mem.storeAt dst bs).get = src'.map mem.get :=
    List.map_congr_left fun a ha => get_storeAt_of_notMem fun hd =>
      hapart a (List.mem_append_right _ ha) (List.mem_append_left _ hd)
  rw [List.map_append, ← hkept, ← h.eq_map hsrc, ← h'.eq_map hsrc']

end Memory

end SpanChain
