import RcCarControl.Lib.LittleEndian
import RcCarControl.Lib.Memory

/-!
# Messages between server and client

The structures of `sw/interface/rcci_type.h` with the layout the compilers give them (padding only in front of the drive
command's integers and behind the frame's data), and the constants of the protocol.
-/

namespace RcCarControl.Interface

open LittleEndian Memory

abbrev U32 := BitVec 32

/-! ### Constants -/

def rcciMsgInit : U32 := 0
def rcciMsgRegService : U32 := 1
def rcciMsgUnregService : U32 := 2

def rcciStatusAck : U32 := 0
def rcciStatusNack : U32 := 1

def rcciClientFlagNone : U32 := 0
def rcciClientFlagInit : U32 := 1
def rcciClientFlagLog : U32 := 2
def rcciClientFlagDrive : U32 := 4

def rcciMsgInitMagic : BitVec 16 := 0xBEEF
def rcciMsgInitVer : BitVec 16 := 0xDEAD

/-! ### Structures -/

/-- `rcci_msg_header_t`. -/
structure MsgHeader where
  magic : BitVec 16
  ver : BitVec 16
  type : U32
  size : U32
  crc : U32
deriving DecidableEq

def MsgHeader.ofBytes (bs : List Byte) : MsgHeader := ⟨u16 bs 0, u16 bs 2, u32 bs 4, u32 bs 8, u32 bs 12⟩

def MsgHeader.toBytes (h : MsgHeader) : List Byte :=
  bytes16 h.magic ++ bytes16 h.ver ++ bytes32 h.type ++ bytes32 h.size ++ bytes32 h.crc

/-- `sizeof(rcci_msg_header_t)`. -/
def msgHeaderSize : Nat := 16

/-- `rcci_msg_init_t`. -/
structure MsgInit where
  header : MsgHeader
  status : U32
  logPort : U32
  drvPort : U32

def MsgInit.toBytes (m : MsgInit) : List Byte :=
  m.header.toBytes ++ bytes32 m.status ++ bytes32 m.logPort ++ bytes32 m.drvPort

def MsgInit.ofBytes (bs : List Byte) : MsgInit := ⟨MsgHeader.ofBytes bs, u32 bs 16, u32 bs 20, u32 bs 24⟩

def msgInitSize : Nat := 28

/-- `struct sockaddr_in`; `memcmp` of two of them compares all members, `sin_zero` included. -/
structure SockaddrIn where
  sinFamily : BitVec 16
  sinPort : BitVec 16
  sinAddr : U32
  sinZero : U32 × U32
deriving DecidableEq

def SockaddrIn.ofBytes (bs : List Byte) (off : Nat) : SockaddrIn :=
  ⟨u16 bs off, u16 bs (off + 2), u32 bs (off + 4), u32 bs (off + 8), u32 bs (off + 12)⟩

def SockaddrIn.toBytes (a : SockaddrIn) : List Byte :=
  bytes16 a.sinFamily ++ bytes16 a.sinPort ++ bytes32 a.sinAddr ++ bytes32 a.sinZero.1 ++ bytes32 a.sinZero.2

/-- `rcci_msg_reg_service_t`. -/
structure MsgRegService where
  header : MsgHeader
  service : U32
  status : U32
  sockaddr : SockaddrIn
  params : U32

def MsgRegService.toBytes (m : MsgRegService) : List Byte :=
  m.header.toBytes ++ bytes32 m.service ++ bytes32 m.status ++ m.sockaddr.toBytes ++ bytes32 m.params

def MsgRegService.ofBytes (bs : List Byte) : MsgRegService :=
  ⟨MsgHeader.ofBytes bs, u32 bs 16, u32 bs 20, SockaddrIn.ofBytes bs 24, u32 bs 40⟩

def msgRegServiceSize : Nat := 44

/-- `rcci_msg_drv_ctrl_t`; the count is followed by three bytes of padding. -/
structure MsgDrvCtrl where
  count : Byte
  drive : U32
  steer : U32
deriving DecidableEq

def MsgDrvCtrl.ofBytes (bs : List Byte) : MsgDrvCtrl := ⟨bs.getD 0 0, u32 bs 4, u32 bs 8⟩

def msgDrvCtrlSize : Nat := 12

/-! ### Video frames -/

/-- `rcci_msg_vframe_max_packet_size`. -/
def msgVframeMaxPacketSize : Nat := (1 <<< 16) - 40

/-- `rcci_msg_vframe_max_frame_size`. -/
def msgVframeMaxFrameSize : Nat := msgVframeMaxPacketSize - msgHeaderSize - 4 * 2 - 1 - 3

/-- Where the data of the frame begins. -/
def msgVframeData : Nat := 27

/-- `sizeof(rcci_msg_vframe_t)`: the data and a byte of padding. -/
def msgVframeSize : Nat := (msgVframeData + msgVframeMaxFrameSize + 3) / 4 * 4

/-- `rcci_msg_vframe_header_size`, which counts the padding too. -/
def msgVframeHeaderSize : Nat := msgVframeSize - msgVframeMaxFrameSize

/-- `rcci_msg_vframe_t`, with the memory from the data on. -/
structure MsgVframe where
  header : MsgHeader
  sizeFrame : U32
  idxFrame : U32
  cntFrame : Byte
  allMsgs : Byte
  curMsg : Byte
  frame : Mem Byte

/-- The first `n` bytes of the structure. -/
def MsgVframe.toBytes (m : MsgVframe) (n : Nat) : List Byte :=
  m.header.toBytes ++ bytes32 m.sizeFrame ++ bytes32 m.idxFrame ++ [m.cntFrame, m.allMsgs, m.curMsg] ++
    load m.frame 0 (n - msgVframeData)

/-! ### Sizes -/

@[simp] theorem MsgHeader.length_toBytes (h : MsgHeader) : h.toBytes.length = msgHeaderSize := rfl

@[simp] theorem MsgInit.length_toBytes (m : MsgInit) : m.toBytes.length = msgInitSize := rfl

@[simp] theorem MsgRegService.length_toBytes (m : MsgRegService) : m.toBytes.length = msgRegServiceSize := rfl

@[simp] theorem MsgHeader.ofBytes_append (h : MsgHeader) (bs : List Byte) : MsgHeader.ofBytes (h.toBytes ++ bs) = h := by
  show MsgHeader.mk (u16 (bytes16 h.magic) 0) (u16 (bytes16 h.ver) 0) (u32 (bytes32 h.type) 0) (u32 (bytes32 h.size) 0)
    (u32 (bytes32 h.crc) 0) = h
  simp only [u16_bytes16, u32_bytes32]

theorem MsgHeader.ofBytes_take_append (h : MsgHeader) (bs : List Byte) :
    MsgHeader.ofBytes ((h.toBytes ++ bs).take msgHeaderSize) = h := by
  rw [← h.length_toBytes, List.take_left, ← List.append_nil h.toBytes]
  exact MsgHeader.ofBytes_append h []

@[simp] theorem MsgInit.ofBytes_toBytes (m : MsgInit) : MsgInit.ofBytes m.toBytes = m := by
  show MsgInit.mk (MsgHeader.ofBytes (m.header.toBytes ++ _)) (u32 (bytes32 m.status) 0) (u32 (bytes32 m.logPort) 0)
    (u32 (bytes32 m.drvPort) 0) = m
  simp only [MsgHeader.ofBytes_append, u32_bytes32]

theorem SockaddrIn.ofBytes_append {xs : List Byte} {off : Nat} (h : xs.length = off) (a : SockaddrIn) (ys : List Byte) :
    SockaddrIn.ofBytes (xs ++ (a.toBytes ++ ys)) off = a := by
  have hword (k : Nat) := u32_append h (a.toBytes ++ ys) k
  have hhalf (k : Nat) := u16_append h (a.toBytes ++ ys) k
  unfold SockaddrIn.ofBytes
  rw [hword 4, hword 8, hword 12, hhalf 2, ← Nat.add_zero off, hhalf 0]
  show SockaddrIn.mk (u16 (bytes16 a.sinFamily) 0) (u16 (bytes16 a.sinPort) 0) (u32 (bytes32 a.sinAddr) 0)
    (u32 (bytes32 a.sinZero.1) 0, u32 (bytes32 a.sinZero.2) 0) = a
  simp only [u16_bytes16, u32_bytes32]

@[simp] theorem MsgRegService.ofBytes_toBytes (m : MsgRegService) : MsgRegService.ofBytes m.toBytes = m := by
  have hservice : u32 m.toBytes 16 = m.service := by
    unfold MsgRegService.toBytes
    simp only [List.append_assoc]
    exact (u32_append m.header.length_toBytes _ 0).trans (u32_bytes32_append _ _)
  have hstatus : u32 m.toBytes 20 = m.status := by
    unfold MsgRegService.toBytes
    simp only [List.append_assoc]
    refine (u32_append m.header.length_toBytes _ 4).trans ?_
    exact (u32_append (length_bytes32 m.service) _ 0).trans (u32_bytes32_append _ _)
  have hsockaddr : SockaddrIn.ofBytes m.toBytes 24 = m.sockaddr := by
    unfold MsgRegService.toBytes
    rw [List.append_assoc]
    exact SockaddrIn.ofBytes_append rfl _ _
  have hparams : u32 m.toBytes 40 = m.params := by
    have hlen : (m.header.toBytes ++ bytes32 m.service ++ bytes32 m.status ++ m.sockaddr.toBytes).length = 40 := rfl
    exact (u32_append hlen _ 0).trans (u32_bytes32 _)
  have hheader : MsgHeader.ofBytes m.toBytes = m.header := by
    unfold MsgRegService.toBytes
    simp only [List.append_assoc, MsgHeader.ofBytes_append]
  unfold MsgRegService.ofBytes
  rw [hheader, hservice, hstatus, hsockaddr, hparams]

theorem MsgVframe.length_toBytes (m : MsgVframe) (n : Nat) :
    (m.toBytes n).length = msgVframeData + (n - msgVframeData) := by
  simp [MsgVframe.toBytes, msgHeaderSize, msgVframeData]
  omega

end RcCarControl.Interface
