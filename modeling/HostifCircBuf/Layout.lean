import Mathlib

/-! Target words, memory blocks and the constant tables of circbuf-nooshostif.c. -/
namespace HostifCircBuf

/-- The target's `size_t` width, `sizeof(tCircBufHeader)`,
`offsetof(tCircBufHostiBuffer, circBufHeader)` and `sizeof(tCircBufHostiBuffer)`. -/
structure Layout where
  wordBits : Nat
  headerSize : Nat
  headerOffset : Nat
  hostiBufferSize : Nat
  headerSize_pos : 0 < headerSize
  reserved_le_headerOffset : 4 ≤ headerOffset
  header_le_hostiBufferSize : headerOffset + headerSize ≤ hostiBufferSize
  hostiBufferSize_lt : hostiBufferSize < 2 ^ wordBits

abbrev Word (L : Layout) := BitVec L.wordBits

def ilp32 : Layout := ⟨32, 24, 4, 28, by decide, by decide, by decide, by decide⟩

variable {L : Layout}

/-- Memory at `[base, base + size)`, off `NULL` and below the top of the address space. -/
structure Block (L : Layout) where
  base : Word L
  size : Nat
  base_ne_null : base ≠ 0
  end_lt : base.toNat + size < 2 ^ L.wordBits

def Block.Holds (b : Block L) (p : Word L) (n : Nat) : Prop :=
  b.base.toNat ≤ p.toNat ∧ p.toNat + n ≤ b.base.toNat + b.size

instance (b : Block L) (p : Word L) (n : Nat) : Decidable (b.Holds p n) :=
  inferInstanceAs (Decidable (_ ∧ _))

def Apart (p : Word L) (n : Nat) (q : Word L) (m : Nat) : Prop :=
  p.toNat + n ≤ q.toNat ∨ q.toNat + m ≤ p.toNat

instance (p : Word L) (n : Nat) (q : Word L) (m : Nat) : Decidable (Apart p n q m) :=
  inferInstanceAs (Decidable (_ ∨ _))

theorem Block.toNat_add {b : Block L} {p : Word L} {k : Nat}
    (hp : p.toNat + k ≤ b.base.toNat + b.size) :
    (p + BitVec.ofNat L.wordBits k).toNat = p.toNat + k := by
  have := b.end_lt
  rw [BitVec.toNat_add, BitVec.toNat_ofNat, Nat.mod_eq_of_lt (by omega : k < 2 ^ L.wordBits),
    Nat.mod_eq_of_lt (by omega)]

theorem toNat_add_cases (x y : Word L) :
    ((x + y).toNat = x.toNat + y.toNat ∧ x.toNat + y.toNat < 2 ^ L.wordBits) ∨
      (x + y).toNat + 2 ^ L.wordBits = x.toNat + y.toNat := by
  have hx := x.isLt
  have hy := y.isLt
  rw [BitVec.toNat_add]
  by_cases h : x.toNat + y.toNat < 2 ^ L.wordBits
  · exact .inl ⟨Nat.mod_eq_of_lt h, h⟩
  · rw [Nat.mod_eq_sub_mod (by omega), Nat.mod_eq_of_lt (by omega)]
    omega

inductive HostifInstanceId where
  | u2KQueue | k2UQueue | txGenQueue | txNmtQueue | txSyncQueue | invalid
  deriving DecidableEq, Repr

abbrev nrOfCircBuffers : Nat := 11

abbrev CircBufId := Fin nrOfCircBuffers

/-- The host interface slot of each queue; `.invalid` keeps it in local memory. -/
def hostifInstance : CircBufId → HostifInstanceId :=
  ![.u2KQueue, .k2UQueue, .invalid, .invalid, .txGenQueue, .txNmtQueue, .txSyncQueue,
    .invalid, .invalid, .invalid, .invalid]

def Shared (id : CircBufId) : Prop := hostifInstance id ≠ .invalid

instance (id : CircBufId) : Decidable (Shared id) := inferInstanceAs (Decidable (_ ≠ _))

/-- `GET_QUEUE_BUF_BASE`: from a header back to the start of its envelope. -/
def getQueueBufBase (L : Layout) (pHeader : Word L) : Word L :=
  pHeader - BitVec.ofNat L.wordBits L.headerOffset

@[simp] theorem getQueueBufBase_header (base : Word L) :
    getQueueBufBase L (base + BitVec.ofNat L.wordBits L.headerOffset) = base :=
  BitVec.add_sub_cancel _ _

theorem getQueueBufBase_eq_iff {pHeader base : Word L} :
    getQueueBufBase L pHeader = base ↔
      pHeader = base + BitVec.ofNat L.wordBits L.headerOffset :=
  sub_eq_iff_eq_add

/-- The file is built once for each processor (`CONFIG_HOSTIF_PCP`). -/
inductive Cpu where
  | pcp | host
  deriving DecidableEq, Repr

/-- `CIRCBUF_HOSTIF_LOCK` in this processor's build. -/
def Cpu.lockValue : Cpu → UInt8
  | .pcp => 0x01
  | .host => 0x02

def circbufHostifUnlock : UInt8 := 0x00

@[simp] theorem Cpu.lockValue_ne_unlock (c : Cpu) : c.lockValue ≠ circbufHostifUnlock := by
  cases c <;> decide

@[simp] theorem Cpu.unlock_ne_lockValue (c : Cpu) : circbufHostifUnlock ≠ c.lockValue :=
  (c.lockValue_ne_unlock).symm

@[simp] theorem Cpu.lockValue_inj {c d : Cpu} : c.lockValue = d.lockValue ↔ c = d := by
  cases c <;> cases d <;> decide

theorem Cpu.eq_of_ne_of_ne {c d e : Cpu} (hcd : c ≠ d) (hed : e ≠ d) : e = c := by
  cases c <;> cases d <;> cases e <;> simp_all

end HostifCircBuf
