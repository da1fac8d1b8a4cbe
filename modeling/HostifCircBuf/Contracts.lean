import HostifCircBuf.Instance

/-! What one call promises its caller: what a failing call leaves behind, and where a
successful `circbuf_allocBuffer` puts the header and the payload. -/
namespace HostifCircBuf

variable {L : Layout}

def Malloc.exhausted : Malloc L := ⟨fun _ => none, by simp⟩

/-- A failing call leaves everything as it was, except that a local queue whose
`OPLK_MALLOC` fails keeps `NULL` in `pCircBufHeader`. -/
theorem failed_call_frame :
    (∀ (instanceL : CircBufId → CircBufInstance L) id getInstance,
      (circbufCreateInstance instanceL id getInstance).1 = none →
        (circbufCreateInstance instanceL id getInstance).2 = instanceL) ∧
    (∀ (inst : CircBufInstance L) pSize mem live malloc getBuf,
      (circbufAllocBuffer L inst pSize mem live malloc getBuf).ret = .noResource →
        circbufAllocBuffer L inst pSize mem live malloc getBuf =
          ⟨.noResource, if inst.pCircBufArchInstance = none
            then { inst with pCircBufHeader := 0 } else inst, pSize, mem, live⟩) ∧
    (∀ (inst : CircBufInstance L) getBuf,
      (circbufConnectBuffer L inst getBuf).1 = .noResource →
        (circbufConnectBuffer L inst getBuf).2 = inst) := by
  refine ⟨fun instanceL id getInstance h => ?_, fun inst pSize mem live malloc getBuf h => ?_,
    fun inst getBuf h => ?_⟩
  · rcases createInstance_cases instanceL id getInstance with he | ⟨_, -, he⟩ <;> simp_all
  · rcases allocBuffer_cases inst pSize mem live malloc getBuf with
      ⟨harch, he⟩ | ⟨harch, -, he⟩ | ⟨_, -, -, he⟩ | ⟨_, _, -, -, -, he⟩ <;>
      simp_all [Option.isSome_iff_ne_none]
  · rcases connectBuffer_cases inst getBuf with ⟨-, he⟩ | he | ⟨_, _, -, -, he⟩ <;> simp_all

theorem failed_call_frame_ilp32 :
    (circbufCreateInstance (L := ilp32) (fun _ => .zero) 0 (fun _ => none)).2 =
        (fun _ => .zero) ∧
    circbufAllocBuffer ilp32 ⟨2, none, 0x2000, 0x2018⟩ 64 (fun _ => 0) [0x2000]
        .exhausted (fun _ _ => none) =
      ⟨.noResource, ⟨2, none, 0, 0x2018⟩, 64, fun _ => 0, [0x2000]⟩ ∧
    (circbufConnectBuffer ilp32 ⟨0, some 1, 0, 0⟩ (fun _ _ => none)).2 = ⟨0, some 1, 0, 0⟩ :=
  ⟨failed_call_frame.1 _ _ _ rfl, failed_call_frame.2.1 _ _ _ _ _ _ rfl,
    failed_call_frame.2.2 _ _ rfl⟩

/-- A local queue that already holds a buffer loses its header pointer when
`OPLK_MALLOC` fails: the failing call is not free of effects. -/
theorem allocBuffer_failure_clears_header :
    (circbufAllocBuffer ilp32 ⟨2, none, 0x2000, 0x2018⟩ 64 (fun _ => 0) [0x2000]
        .exhausted (fun _ _ => none)).ret = .noResource ∧
    (circbufAllocBuffer ilp32 ⟨2, none, 0x2000, 0x2018⟩ 64 (fun _ => 0) [0x2000]
        .exhausted (fun _ _ => none)).inst ≠ ⟨2, none, 0x2000, 0x2018⟩ := by
  decide

/-- `OPLK_MALLOC` that hands out `base` for every size that fits. -/
def Malloc.at (base : Word L) (hb : base ≠ 0) : Malloc L where
  alloc n := if h : base.toNat + n < 2 ^ L.wordBits then some ⟨base, n, hb, h⟩ else none
  size_eq n b h := by
    by_cases hn : base.toNat + n < 2 ^ L.wordBits <;> simp [hn] at h
    exact h ▸ rfl

theorem Malloc.at_base {base : Word L} {hb : base ≠ 0} {n : Nat} {b : Block L}
    (h : (Malloc.at base hb).alloc n = some b) : b.base = base := by
  simp only [Malloc.at] at h
  split at h <;> cases h
  rfl

/-- The header and the payload lie inside `b` and do not meet. -/
def Fits (b : Block L) (inst : CircBufInstance L) (size : Word L) : Prop :=
  b.Holds inst.pCircBufHeader L.headerSize ∧ b.Holds inst.pCircBuf size.toNat ∧
    Apart inst.pCircBufHeader L.headerSize inst.pCircBuf size.toNat

/-- A local queue whose request leaves room for the header below `SIZE_MAX` gets a
header and a payload inside the block `OPLK_MALLOC` returned. -/
theorem allocBuffer_local_fits (inst : CircBufInstance L) (pSize : Word L) (mem : Mem L)
    (live : List (Word L)) (malloc : Malloc L) (getBuf : GetBuf L)
    (harch : inst.pCircBufArchInstance = none)
    (hsize : pSize.toNat + L.headerSize < 2 ^ L.wordBits)
    (hok : (circbufAllocBuffer L inst pSize mem live malloc getBuf).ret = .ok) :
    ∃ b, malloc.alloc (pSize.toNat + L.headerSize) = some b ∧
      Fits b (circbufAllocBuffer L inst pSize mem live malloc getBuf).inst
        (circbufAllocBuffer L inst pSize mem live malloc getBuf).size := by
  have hH : (pSize + BitVec.ofNat L.wordBits L.headerSize).toNat = pSize.toNat + L.headerSize := by
    rw [BitVec.toNat_add, BitVec.toNat_ofNat, Nat.mod_eq_of_lt (by omega : L.headerSize < _),
      Nat.mod_eq_of_lt hsize]
  rcases allocBuffer_cases inst pSize mem live malloc getBuf with
    ⟨h, -⟩ | ⟨-, -, he⟩ | ⟨b, -, hb, he⟩ | ⟨_, _, h, -⟩
  · simp [harch] at h
  · simp [he] at hok
  · rw [hH] at hb
    have hs := malloc.size_eq _ _ hb
    have hp := Block.toNat_add (b := b) (p := b.base) (k := L.headerSize) (by omega)
    refine ⟨b, hb, ?_⟩
    simp only [he, Fits, Block.Holds, Apart, hp]
    omega
  · simp [harch] at h

theorem allocBuffer_local_fits_ilp32 :
    ∃ b, (Malloc.at (L := ilp32) 0x1000 (by decide)).alloc (64 + 24) = some b ∧
      Fits b (circbufAllocBuffer ilp32 ⟨2, none, 0, 0⟩ 64 (fun _ => 0) []
          (.at 0x1000 (by decide)) (fun _ _ => none)).inst
        (circbufAllocBuffer ilp32 ⟨2, none, 0, 0⟩ 64 (fun _ => 0) []
          (.at 0x1000 (by decide)) (fun _ _ => none)).size :=
  allocBuffer_local_fits ⟨2, none, 0, 0⟩ 64 (fun _ => 0) [] (.at 0x1000 (by decide))
    (fun _ _ => none) rfl (by decide) (by decide)

/-- A shared queue whose request covers the envelope gets its header and payload
inside the window `hostif_getBuf` reported, in the envelope's order. -/
theorem allocBuffer_shared_fits (inst : CircBufInstance L) (pSize : Word L) (mem : Mem L)
    (live : List (Word L)) (malloc : Malloc L) (getBuf : GetBuf L) (pHostif : Nat)
    (harch : inst.pCircBufArchInstance = some pHostif)
    (hsize : L.hostiBufferSize ≤ pSize.toNat)
    (hok : (circbufAllocBuffer L inst pSize mem live malloc getBuf).ret = .ok) :
    ∃ w, getBuf pHostif (hostifInstance inst.bufferId) = some w ∧
      Fits w (circbufAllocBuffer L inst pSize mem live malloc getBuf).inst
        (circbufAllocBuffer L inst pSize mem live malloc getBuf).size ∧
      (circbufAllocBuffer L inst pSize mem live malloc getBuf).inst.pCircBufHeader.toNat =
        w.base.toNat + L.headerOffset ∧
      (circbufAllocBuffer L inst pSize mem live malloc getBuf).inst.pCircBuf.toNat =
        w.base.toNat + L.hostiBufferSize := by
  have := L.header_le_hostiBufferSize
  rcases allocBuffer_cases inst pSize mem live malloc getBuf with
    ⟨-, he⟩ | ⟨h, -⟩ | ⟨_, h, -⟩ | ⟨_, w, h, hw, hle, he⟩
  · simp [he] at hok
  · simp [harch] at h
  · simp [harch] at h
  · obtain rfl : pHostif = _ := Option.some_inj.mp (harch.symm.trans h)
    have hh := Block.toNat_add (b := w) (p := w.base) (k := L.headerOffset) (by omega)
    have hp := Block.toNat_add (b := w) (p := w.base) (k := L.hostiBufferSize) (by omega)
    have hs : (pSize - BitVec.ofNat L.wordBits L.hostiBufferSize).toNat =
        pSize.toNat - L.hostiBufferSize := by
      rw [BitVec.toNat_sub_of_le] <;>
        simp [BitVec.le_def, Nat.mod_eq_of_lt L.hostiBufferSize_lt, hsize]
    refine ⟨w, hw, ?_⟩
    simp only [he, Fits, Block.Holds, Apart, CircBufInstance.wire, hh, hp, hs, and_true]
    omega

theorem allocBuffer_shared_fits_ilp32 :
    let w : Block ilp32 := ⟨0x1000, 0x100, by decide, by decide⟩
    let out := circbufAllocBuffer ilp32 ⟨0, some 7, 0, 0⟩ 64 (fun _ => 0) [] .exhausted
      fun _ _ => some w
    Fits w out.inst out.size ∧ out.inst.pCircBufHeader.toNat = 0x1000 + 4 ∧
      out.inst.pCircBuf.toNat = 0x1000 + 28 := by
  intro w out
  obtain ⟨w', hw', hfit, hh, hp⟩ := allocBuffer_shared_fits ⟨0, some 7, 0, 0⟩ 64 (fun _ => 0) []
    .exhausted (fun _ _ => some w) 7 rfl (by decide) rfl
  cases hw'
  exact ⟨hfit, hh, hp⟩

/-- On a shared queue a request below `sizeof(tCircBufHostiBuffer)` succeeds, and
`size -= sizeof(tCircBufHostiBuffer)` wraps: the payload does not fit in the window. -/
theorem allocBuffer_shared_payload_escapes (inst : CircBufInstance L) (pHostif : Nat)
    (mem : Mem L) (live : List (Word L)) (malloc : Malloc L) (w : Block L) :
    (circbufAllocBuffer L { inst with pCircBufArchInstance := some pHostif } 0 mem live malloc
        (fun _ _ => some w)).ret = .ok ∧
    ¬ w.Holds (circbufAllocBuffer L { inst with pCircBufArchInstance := some pHostif } 0 mem
        live malloc (fun _ _ => some w)).inst.pCircBuf
      (circbufAllocBuffer L { inst with pCircBufArchInstance := some pHostif } 0 mem live
        malloc (fun _ _ => some w)).size.toNat := by
  have hw := w.end_lt
  have hB := L.hostiBufferSize_lt
  have h4 := L.reserved_le_headerOffset
  have h5 := L.header_le_hostiBufferSize
  have hs : (0 - BitVec.ofNat L.wordBits L.hostiBufferSize).toNat =
      2 ^ L.wordBits - L.hostiBufferSize := by
    simp only [BitVec.toNat_sub, BitVec.toNat_ofNat, BitVec.ofNat_eq_ofNat, Nat.zero_mod,
      add_zero, Nat.mod_eq_of_lt hB]
    exact Nat.mod_eq_of_lt (by omega)
  have hp := toNat_add_cases w.base (BitVec.ofNat L.wordBits L.hostiBufferSize)
  simp only [BitVec.toNat_ofNat, Nat.mod_eq_of_lt hB] at hp
  have hout : circbufAllocBuffer L { inst with pCircBufArchInstance := some pHostif } 0 mem live
      malloc (fun _ _ => some w) = ⟨.ok, { inst with pCircBufArchInstance := some pHostif }.wire L
        w.base, 0 - BitVec.ofNat L.wordBits L.hostiBufferSize,
        Function.update mem w.base circbufHostifUnlock, live⟩ := by
    simp [circbufAllocBuffer]
  rw [hout]
  refine ⟨rfl, ?_⟩
  simp only [Block.Holds, CircBufInstance.wire, hs]
  omega

/-- A local request near `SIZE_MAX` makes `size += sizeof(tCircBufHeader)` wrap, so
the block `OPLK_MALLOC` hands back cannot hold the header. -/
theorem allocBuffer_local_header_escapes (inst : CircBufInstance L) (mem : Mem L)
    (live : List (Word L)) (malloc : Malloc L) (getBuf : GetBuf L) (b : Block L)
    (harch : inst.pCircBufArchInstance = none)
    (hb : malloc.alloc (L.headerSize - 1) = some b) :
    (circbufAllocBuffer L inst (BitVec.allOnes L.wordBits) mem live malloc getBuf).ret = .ok ∧
    ¬ b.Holds (circbufAllocBuffer L inst (BitVec.allOnes L.wordBits) mem live malloc
        getBuf).inst.pCircBufHeader L.headerSize := by
  have hH := L.headerSize_pos
  have hlt : L.headerSize < 2 ^ L.wordBits := by
    have := L.header_le_hostiBufferSize; have := L.hostiBufferSize_lt; omega
  have hm : (BitVec.allOnes L.wordBits + BitVec.ofNat L.wordBits L.headerSize).toNat =
      L.headerSize - 1 := by
    rw [BitVec.toNat_add, BitVec.toNat_allOnes, BitVec.toNat_ofNat, Nat.mod_eq_of_lt hlt,
      Nat.mod_eq_sub_mod (by omega), Nat.mod_eq_of_lt (by omega)]
    omega
  have hs := malloc.size_eq _ _ hb
  simp only [circbufAllocBuffer, harch, hm, hb, Block.Holds, true_and]
  omega

theorem allocBuffer_local_header_escapes_ilp32 :
    let b : Block ilp32 := ⟨0x1000, 23, by decide, by decide⟩
    let out := circbufAllocBuffer ilp32 ⟨2, none, 0, 0⟩ (BitVec.allOnes 32) (fun _ => 0) []
      (.at 0x1000 (by decide)) fun _ _ => none
    out.ret = .ok ∧ ¬ b.Holds out.inst.pCircBufHeader 24 :=
  allocBuffer_local_header_escapes _ _ _ _ _ _ rfl rfl

end HostifCircBuf
