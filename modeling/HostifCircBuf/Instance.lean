import HostifCircBuf.Layout

/-! The functions of circbuf-nooshostif.c, one call at a time, with the answers of
`hostif_getInstance`, `hostif_getBuf` and `OPLK_MALLOC` as arguments. -/
namespace HostifCircBuf

variable {L : Layout}

/-- `tCircBufInstance`; `pCircBufArchInstance` is the host interface handle. -/
structure CircBufInstance (L : Layout) where
  bufferId : CircBufId
  pCircBufArchInstance : Option Nat
  pCircBufHeader : Word L
  pCircBuf : Word L
  deriving DecidableEq, Repr

/-- An entry of the zero-initialised `instance_l`. -/
def CircBufInstance.zero : CircBufInstance L := ⟨0, none, 0, 0⟩

inductive CircBufError where
  | ok | noResource
  deriving DecidableEq, Repr

abbrev Mem (L : Layout) := Word L → UInt8

/-- `hostif_getBuf`: the buffer it reports, `none` unless it returns `kHostifSuccessful`. -/
abbrev GetBuf (L : Layout) := Nat → HostifInstanceId → Option (Block L)

/-- `OPLK_MALLOC` at one call: `NULL` or a block of exactly the size asked for. -/
structure Malloc (L : Layout) where
  alloc : Nat → Option (Block L)
  size_eq : ∀ n b, alloc n = some b → b.size = n

/-- `circbuf_createInstance`: the entry returned (`none` is `NULL`) and `instance_l`. -/
def circbufCreateInstance (instanceL : CircBufId → CircBufInstance L) (id : CircBufId)
    (getInstance : Nat → Option Nat) : Option CircBufId × (CircBufId → CircBufInstance L) :=
  let created (arch : Option Nat) :=
    (some id, Function.update instanceL id
      { instanceL id with pCircBufArchInstance := arch, bufferId := id })
  if hostifInstance id = .invalid then created none
  else
    match getInstance 0 with
    | none => (none, instanceL)
    | some pHostif => created (some pHostif)

def CircBufInstance.wire (L : Layout) (inst : CircBufInstance L) (base : Word L) :
    CircBufInstance L :=
  { inst with pCircBufHeader := base + BitVec.ofNat L.wordBits L.headerOffset,
              pCircBuf := base + BitVec.ofNat L.wordBits L.hostiBufferSize }

/-- What `circbuf_allocBuffer` leaves, with `live` the bases of the live heap blocks. -/
structure AllocOut (L : Layout) where
  ret : CircBufError
  inst : CircBufInstance L
  size : Word L
  mem : Mem L
  live : List (Word L)

/-- `circbuf_allocBuffer(pInstance_p, pSize_p)`; `size_t` arithmetic wraps. -/
def circbufAllocBuffer (L : Layout) (inst : CircBufInstance L) (pSize : Word L) (mem : Mem L)
    (live : List (Word L)) (malloc : Malloc L) (getBuf : GetBuf L) : AllocOut L :=
  match inst.pCircBufArchInstance with
  | none =>
    match malloc.alloc (pSize + BitVec.ofNat L.wordBits L.headerSize).toNat with
    | none => ⟨.noResource, { inst with pCircBufHeader := 0 }, pSize, mem, live⟩
    | some b =>
      ⟨.ok, { inst with pCircBufHeader := b.base,
                        pCircBuf := b.base + BitVec.ofNat L.wordBits L.headerSize },
        pSize, mem, b.base :: live⟩
  | some pHostif =>
    match getBuf pHostif (hostifInstance inst.bufferId) with
    | none => ⟨.noResource, inst, pSize, mem, live⟩
    | some w =>
      if pSize.toNat > w.size then ⟨.noResource, inst, pSize, mem, live⟩
      else
        ⟨.ok, inst.wire L w.base, pSize - BitVec.ofNat L.wordBits L.hostiBufferSize,
          Function.update mem w.base circbufHostifUnlock, live⟩

/-- `circbuf_freeBuffer`: the pointer it hands to `OPLK_FREE`, if it calls it. -/
def circbufFreeBuffer (inst : CircBufInstance L) : Option (Word L) :=
  match inst.pCircBufArchInstance with
  | none => some inst.pCircBufHeader
  | some _ => none

def oplkFree (live : List (Word L)) (p : Word L) : List (Word L) := live.erase p

def circbufConnectBuffer (L : Layout) (inst : CircBufInstance L) (getBuf : GetBuf L) :
    CircBufError × CircBufInstance L :=
  match inst.pCircBufArchInstance with
  | none => (.ok, inst)
  | some pHostif =>
    match getBuf pHostif (hostifInstance inst.bufferId) with
    | none => (.noResource, inst)
    | some w => (.ok, inst.wire L w.base)

/-- `&pHostifBuf->lock` as `circbuf_lock` and `circbuf_unlock` compute it. -/
def circbufLockAddr (L : Layout) (inst : CircBufInstance L) : Option (Word L) :=
  inst.pCircBufArchInstance.map fun _ => getQueueBufBase L inst.pCircBufHeader

def writeLock (addr : Option (Word L)) (v : UInt8) (mem : Mem L) : Mem L :=
  addr.elim mem fun a => Function.update mem a v

@[simp] theorem writeLock_some (a : Word L) (v : UInt8) (mem : Mem L) :
    writeLock (some a) v mem = Function.update mem a v := rfl

/-- The memory once `circbuf_lock` has returned; `Spinlock` models how it gets there. -/
def circbufLock (L : Layout) (self : Cpu) (inst : CircBufInstance L) (mem : Mem L) : Mem L :=
  writeLock (circbufLockAddr L inst) self.lockValue mem

def circbufUnlock (L : Layout) (inst : CircBufInstance L) (mem : Mem L) : Mem L :=
  writeLock (circbufLockAddr L inst) circbufHostifUnlock mem

theorem createInstance_other (instanceL : CircBufId → CircBufInstance L) {id id' : CircBufId}
    (getInstance : Nat → Option Nat) (h : id' ≠ id) :
    (circbufCreateInstance instanceL id getInstance).2 id' = instanceL id' := by
  unfold circbufCreateInstance
  split_ifs
  · simp [h]
  · split <;> simp [h]

@[simp] theorem allocBuffer_bufferId (inst : CircBufInstance L) (pSize : Word L) (mem : Mem L)
    (live : List (Word L)) (malloc : Malloc L) (getBuf : GetBuf L) :
    (circbufAllocBuffer L inst pSize mem live malloc getBuf).inst.bufferId = inst.bufferId := by
  unfold circbufAllocBuffer
  repeat' split
  all_goals rfl

@[simp] theorem allocBuffer_arch (inst : CircBufInstance L) (pSize : Word L) (mem : Mem L)
    (live : List (Word L)) (malloc : Malloc L) (getBuf : GetBuf L) :
    (circbufAllocBuffer L inst pSize mem live malloc getBuf).inst.pCircBufArchInstance =
      inst.pCircBufArchInstance := by
  unfold circbufAllocBuffer
  repeat' split
  all_goals simp_all [CircBufInstance.wire]

@[simp] theorem connectBuffer_bufferId (inst : CircBufInstance L) (getBuf : GetBuf L) :
    (circbufConnectBuffer L inst getBuf).2.bufferId = inst.bufferId := by
  unfold circbufConnectBuffer
  repeat' split
  all_goals rfl

@[simp] theorem connectBuffer_arch (inst : CircBufInstance L) (getBuf : GetBuf L) :
    (circbufConnectBuffer L inst getBuf).2.pCircBufArchInstance = inst.pCircBufArchInstance := by
  unfold circbufConnectBuffer
  repeat' split
  all_goals rfl

/-- Everything `circbuf_createInstance` can do. -/
theorem createInstance_cases (instanceL : CircBufId → CircBufInstance L) (id : CircBufId)
    (getInstance : Nat → Option Nat) :
    circbufCreateInstance instanceL id getInstance = (none, instanceL) ∨
      ∃ arch : Option Nat, (arch = none ↔ hostifInstance id = .invalid) ∧
        circbufCreateInstance instanceL id getInstance = (some id, Function.update instanceL id
          { instanceL id with pCircBufArchInstance := arch, bufferId := id }) := by
  unfold circbufCreateInstance
  by_cases hid : hostifInstance id = .invalid
  · exact .inr ⟨none, by simp [hid], by simp [hid]⟩
  · rcases getInstance 0 with _ | pHostif
    · simp [hid]
    · exact .inr ⟨some pHostif, by simp [hid], by simp [hid]⟩

/-- Everything `circbuf_allocBuffer` can do, one disjunct per path through it. -/
theorem allocBuffer_cases (inst : CircBufInstance L) (pSize : Word L) (mem : Mem L)
    (live : List (Word L)) (malloc : Malloc L) (getBuf : GetBuf L) :
    let out := circbufAllocBuffer L inst pSize mem live malloc getBuf
    (inst.pCircBufArchInstance.isSome ∧ out = ⟨.noResource, inst, pSize, mem, live⟩) ∨
    (inst.pCircBufArchInstance = none ∧
      malloc.alloc (pSize + BitVec.ofNat L.wordBits L.headerSize).toNat = none ∧
      out = ⟨.noResource, { inst with pCircBufHeader := 0 }, pSize, mem, live⟩) ∨
    (∃ b, inst.pCircBufArchInstance = none ∧
      malloc.alloc (pSize + BitVec.ofNat L.wordBits L.headerSize).toNat = some b ∧
      out = ⟨.ok, { inst with pCircBufHeader := b.base,
                              pCircBuf := b.base + BitVec.ofNat L.wordBits L.headerSize },
        pSize, mem, b.base :: live⟩) ∨
    (∃ pHostif w, inst.pCircBufArchInstance = some pHostif ∧
      getBuf pHostif (hostifInstance inst.bufferId) = some w ∧ pSize.toNat ≤ w.size ∧
      out = ⟨.ok, inst.wire L w.base, pSize - BitVec.ofNat L.wordBits L.hostiBufferSize,
        Function.update mem w.base circbufHostifUnlock, live⟩) := by
  unfold circbufAllocBuffer
  rcases harch : inst.pCircBufArchInstance with _ | pHostif
  · rcases hm : malloc.alloc (pSize + BitVec.ofNat L.wordBits L.headerSize).toNat with _ | b
      <;> simp
  · rcases hg : getBuf pHostif (hostifInstance inst.bufferId) with _ | w
    · simp [hg]
    · by_cases hs : pSize.toNat > w.size
      · simp [hg, hs]
      · exact .inr (.inr (.inr ⟨pHostif, w, rfl, hg, Nat.le_of_not_gt hs, by simp [hg, hs]⟩))

theorem freeBuffer_eq_some {inst : CircBufInstance L} {p : Word L} :
    circbufFreeBuffer inst = some p ↔
      inst.pCircBufArchInstance = none ∧ inst.pCircBufHeader = p := by
  unfold circbufFreeBuffer
  split <;> simp_all

theorem connectBuffer_cases (inst : CircBufInstance L) (getBuf : GetBuf L) :
    (inst.pCircBufArchInstance = none ∧ circbufConnectBuffer L inst getBuf = (.ok, inst)) ∨
    circbufConnectBuffer L inst getBuf = (.noResource, inst) ∨
    ∃ pHostif w, inst.pCircBufArchInstance = some pHostif ∧
      getBuf pHostif (hostifInstance inst.bufferId) = some w ∧
      circbufConnectBuffer L inst getBuf = (.ok, inst.wire L w.base) := by
  unfold circbufConnectBuffer
  rcases harch : inst.pCircBufArchInstance with _ | pHostif
  · simp
  · rcases hg : getBuf pHostif (hostifInstance inst.bufferId) with _ | w <;> simp [hg]

end HostifCircBuf
