import Xmqtt.Message.Encode
import Xmqtt.Message.Frame

/-!
# Acknowledgements and messages without a body

PUBACK, PUBREC, PUBREL, PUBCOMP and UNSUBACK embed one another's type: their
body is a packet id.  SUBACK adds return codes to it.  CONNACK has two bytes of
its own, and PINGREQ, PINGRESP and DISCONNECT have no body at all.
-/

namespace Xmqtt.Message

open Xmqtt.Go

/-- The packet id of an acknowledgement, zero if it was never set. -/
def packetIdOrZero (id : Bytes) : Bytes := if id.length < 2 then [0, 0] else id.take 2

@[simp]
theorem length_packetIdOrZero (id : Bytes) : (packetIdOrZero id).length = 2 := by
  rw [packetIdOrZero]
  split
  · rfl
  · rw [List.length_take]
    omega

/-- `if copy(dst[total:total+2], this.packetId) != 2 { dst[total], dst[total+1] = 0, 0 }`. -/
def emitPacketIdOrZero {μ : Type} (id : Bytes) (state : Encoded μ) (total : ℕ) :
    Outcome Err (Encoded μ) :=
  if state.dst.length < total + 2 then .panic
  else
    .done
      { state with
        dst := state.dst.take total ++ packetIdOrZero id ++ state.dst.drop (total + 2) }
      (total + 2)

/-! ## PUBACK, PUBREC, PUBREL, PUBCOMP, UNSUBACK -/

structure PubackMessage extends Header where
  deriving DecidableEq, Repr

namespace PubackMessage

def withHeader (_this : PubackMessage) (header : Header) : PubackMessage := ⟨header⟩

def setPacketId (this : PubackMessage) (v : UInt16) : PubackMessage :=
  this.withHeader (this.toHeader.setPacketId v)

def msglen (_this : PubackMessage) : ℕ := 2

def len (this : PubackMessage) : PubackMessage × ℕ :=
  (this.withHeader (this.lenOf this.msglen).1, (this.lenOf this.msglen).2)

def decode (this : PubackMessage) (src : Slice) : Outcome Err PubackMessage :=
  ((this.toHeader.decode src).map this.withHeader).andThen fun this total =>
  ((this.readPacketId src total).map this.withHeader).andThen fun this total =>
  .done { this with dirty := false } total

def encode (this : PubackMessage) (dst : Bytes) (gPacketId : UInt64) :
    Outcome Err (Encoded PubackMessage) :=
  if !this.dirty then encodeClean "puback" this.toHeader ⟨this, dst, gPacketId⟩
  else
    encodeBody this.toHeader this.withHeader this.msglen (emitPacketIdOrZero this.packetId)
      dst gPacketId "puback"

end PubackMessage

def newPubackMessage : PubackMessage := ⟨newHeader .puback⟩
def newPubrecMessage : PubackMessage := ⟨newHeader .pubrec⟩
def newPubrelMessage : PubackMessage := ⟨newHeader .pubrel⟩
def newPubcompMessage : PubackMessage := ⟨newHeader .pubcomp⟩
def newUnsubackMessage : PubackMessage := ⟨newHeader .unsuback⟩

/-! ## SUBACK -/

/-- The first return code that is neither a QoS nor a failure, as both `Decode`
and `Encode` look for it. -/
def checkReturnCodes (method : String) (codes : Bytes) : Option Err :=
  match codes.findIdx? fun code => code != 0x00 && code != 0x01 && code != 0x02 && code != 0x80 with
  | some i =>
      some (.errorf ("suback/" ++ method ++ ": Invalid return code %d for topic %d")
        [.int (codes.getD i 0).toNat, .int i])
  | none => none

theorem checkReturnCodes_of_forall {codes : Bytes}
    (hcodes : ∀ code ∈ codes, code = 0 ∨ code = 1 ∨ code = 2 ∨ code = 0x80)
    (method : String) : checkReturnCodes method codes = none := by
  have hnone : codes.findIdx? (fun code => code != 0x00 && code != 0x01 && code != 0x02 &&
      code != 0x80) = none := by
    rw [List.findIdx?_eq_none_iff]
    intro code hmem
    rcases hcodes code hmem with rfl | rfl | rfl | rfl <;> rfl
  rw [checkReturnCodes, hnone]

structure SubackMessage extends Header where
  returnCodes : Bytes
  deriving DecidableEq, Repr

def newSubackMessage : SubackMessage := ⟨newHeader .suback, []⟩

namespace SubackMessage

def withHeader (this : SubackMessage) (header : Header) : SubackMessage :=
  ⟨header, this.returnCodes⟩

/-- The codes in front of an invalid one are added, but the message does not
count as changed then. -/
def addReturnCodes (this : SubackMessage) (ret : Bytes) : SubackMessage × Option Err :=
  match ret with
  | [] => ({ this with dirty := true }, none)
  | code :: ret =>
      if code ≠ qosAtMostOnce ∧ code ≠ qosAtLeastOnce ∧ code ≠ qosExactlyOnce ∧
          code ≠ qosFailure then
        (this, some (.errorf
          "suback/AddReturnCode: Invalid return code %d. Must be 0, 1, 2, 0x80."
          [.int code.toNat]))
      else addReturnCodes { this with returnCodes := this.returnCodes ++ [code] } ret

def setPacketId (this : SubackMessage) (v : UInt16) : SubackMessage :=
  this.withHeader (this.toHeader.setPacketId v)

def msglen (this : SubackMessage) : ℕ := 2 + this.returnCodes.length

def len (this : SubackMessage) : SubackMessage × ℕ :=
  (this.withHeader (this.lenOf this.msglen).1, (this.lenOf this.msglen).2)

/-- `this.returnCodes = src[total : total+l]`. -/
def readReturnCodes (src : Slice) (hn : ℕ) (this : SubackMessage) (total : ℕ) :
    Outcome Err SubackMessage :=
  match src.window total (total + (this.remlen - ((total : ℤ) - hn))) with
  | none => .panic
  | some codes => .done { this with returnCodes := codes.bytes } (total + codes.bytes.length)

def decode (this : SubackMessage) (src : Slice) : Outcome Err SubackMessage :=
  ((this.toHeader.decode src).map this.withHeader).andThen fun this hn =>
  ((this.readPacketId src hn).map this.withHeader).andThen fun this total =>
  (readReturnCodes src hn this total).andThen fun this total =>
  (Outcome.failOn (checkReturnCodes "Decode" this.returnCodes) this total).andThen
    fun this total =>
  .done { this with dirty := false } total

def encodeFields (this : SubackMessage) (state : Encoded SubackMessage) (total : ℕ) :
    Outcome Err (Encoded SubackMessage) :=
  (emitPacketIdOrZero this.packetId state total).andThen (emitWhole this.returnCodes)

def encode (this : SubackMessage) (dst : Bytes) (gPacketId : UInt64) :
    Outcome Err (Encoded SubackMessage) :=
  if !this.dirty then encodeClean "suback" this.toHeader ⟨this, dst, gPacketId⟩
  else
    match checkReturnCodes "Encode" this.returnCodes with
    | some err => .fail ⟨this, dst, gPacketId⟩ 0 err
    | none =>
        encodeBody this.toHeader this.withHeader this.msglen this.encodeFields dst gPacketId
          "suback"

end SubackMessage

/-! ## CONNACK -/

structure ConnackMessage extends Header where
  sessionPresent : Bool
  returnCode : ConnackCode
  deriving DecidableEq, Repr

def newConnackMessage : ConnackMessage := ⟨newHeader .connack, false, connectionAccepted⟩

namespace ConnackMessage

def withHeader (this : ConnackMessage) (header : Header) : ConnackMessage :=
  ⟨header, this.sessionPresent, this.returnCode⟩

def setSessionPresent (this : ConnackMessage) (v : Bool) : ConnackMessage :=
  { this with sessionPresent := v, dirty := true }

def setReturnCode (this : ConnackMessage) (ret : ConnackCode) : ConnackMessage :=
  { this with returnCode := ret, dirty := true }

def msglen (_this : ConnackMessage) : ℕ := 2

def len (this : ConnackMessage) : ConnackMessage × ℕ :=
  (this.withHeader (this.lenOf this.msglen).1, (this.lenOf this.msglen).2)

/-- The flags byte and the return code.  Their errors count no bytes. -/
def decodeFields (src : Slice) (this : ConnackMessage) (total : ℕ) :
    Outcome Err ConnackMessage :=
  match src.bytes[total]? with
  | none => .panic
  | some flags =>
      if flags &&& 254 ≠ 0 then
        .fail this 0 (.errorf
          "connack/Decode: Bits 7-1 in Connack Acknowledge Flags byte (1) are not 0" [])
      else
        match src.bytes[total + 1]? with
        | none => .panic
        | some code =>
            if code > 5 then
              .fail { this with sessionPresent := flags &&& 0x1 == 1 } 0
                (.errorf "connack/Decode: Invalid CONNACK return code (%d)" [.int code.toNat])
            else
              .done
                { this with
                  sessionPresent := flags &&& 0x1 == 1
                  returnCode := code.toUInt64
                  dirty := false }
                (total + 2)

def decode (this : ConnackMessage) (src : Slice) : Outcome Err ConnackMessage :=
  ((this.toHeader.decode src).map this.withHeader).andThen (decodeFields src)

/-- Without a session the flags byte is skipped, so the buffer keeps what was
there. -/
def encodeFields (this : ConnackMessage) (state : Encoded ConnackMessage) (total : ℕ) :
    Outcome Err (Encoded ConnackMessage) :=
  (if this.sessionPresent then emitByte 1 state total
    else .done state (total + 1)).andThen (emitByte this.returnCode.toUInt8)

def encode (this : ConnackMessage) (dst : Bytes) (gPacketId : UInt64) :
    Outcome Err (Encoded ConnackMessage) :=
  if !this.dirty then encodeClean "connack" this.toHeader ⟨this, dst, gPacketId⟩
  else
    encodeBody this.toHeader this.withHeader this.msglen this.encodeFields dst gPacketId
      "connack"

end ConnackMessage

/-! ## PINGREQ, PINGRESP, DISCONNECT -/

structure DisconnectMessage extends Header where
  deriving DecidableEq, Repr

namespace DisconnectMessage

def withHeader (_this : DisconnectMessage) (header : Header) : DisconnectMessage := ⟨header⟩

/-- The length of the header alone, whatever the remaining length. -/
def len (this : DisconnectMessage) : ℕ := this.msglen

/-- Unlike the other decoders this one leaves the message changed, so that a
later `Encode` writes the header anew. -/
def decode (this : DisconnectMessage) (src : Slice) : Outcome Err DisconnectMessage :=
  (this.toHeader.decode src).map this.withHeader

def encode (this : DisconnectMessage) (dst : Bytes) (gPacketId : UInt64) :
    Outcome Err (Encoded DisconnectMessage) :=
  if !this.dirty then encodeClean "disconnect" this.toHeader ⟨this, dst, gPacketId⟩
  else emitHeader this.toHeader ⟨this, dst, gPacketId⟩

end DisconnectMessage

def newPingreqMessage : DisconnectMessage := ⟨newHeader .pingreq⟩
def newPingrespMessage : DisconnectMessage := ⟨newHeader .pingresp⟩
def newDisconnectMessage : DisconnectMessage := ⟨newHeader .disconnect⟩

end Xmqtt.Message
