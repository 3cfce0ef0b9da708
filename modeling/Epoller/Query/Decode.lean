import Epoller.Types

/-!
# The DNS Message Decoder

`Query::decode` of `query.cpp` with its helpers. A datagram is any byte string;
every read goes through `readAt`, so the model fails exactly where the code reads
at or beyond `data.size()`.

- `Header`, `Footer`, `Answer`, `Qanswer`: the records of the source
- `decodeHeader`, `decodeName`, `decodeFooter`, `decodeAnswer`: the helpers
- `decode`: the questions, then the answers
-/

namespace Epoller.Query

open Foundation

/-- `Qtype`: an enumeration over `uint16_t`; a message can hold any value of it. -/
abbrev Qtype := UInt16

def Qtype.A : Qtype := 1

def Qtype.Aaaa : Qtype := 28

/-- `Qclass`: an enumeration over `uint16_t` -/
abbrev Qclass := UInt16

def Qclass.Internet : Qclass := 1

/-- `Qanswer`. `ttl` has no value before the first answer was read. -/
structure Qanswer where
  valid : Bool
  reqNo : UInt16
  name : Bytes
  addr : List IpAddr
  ttl : Option NanoSecs
  timeStamp : TimePointNs
deriving DecidableEq, Repr

/-- `Header`: the six words of the message header -/
structure Header where
  id : UInt16
  reqFlags : UInt16
  qdcount : UInt16
  ancount : UInt16
  nscount : UInt16
  arcount : UInt16
deriving DecidableEq, Repr

structure Footer where
  qtype : Qtype
  qclass : Qclass
deriving DecidableEq, Repr

structure Answer where
  qtype : Qtype
  qclass : Qclass
  ttl : UInt32
  rdlength : UInt16
deriving DecidableEq, Repr

/-- `sizeof(QueryHeader)` -/
def HEADER_SIZE : ℕ := 12

/-! ## Helpers -/

/-- `networkEndian(data[i], data[i + 1])` -/
def readWord (data : Bytes) (i : ℕ) : Except OutOfBounds UInt16 := do
  let d0 ← readAt data i
  let d1 ← readAt data (i + 1)
  .ok (networkEndian16 d0 d1)

/-- `decodeHeader`: a message shorter than a header has the zero header. -/
def decodeHeader (data : Bytes) : Except OutOfBounds Header :=
  if HEADER_SIZE ≤ data.length then do
    let id ← readWord data 0
    let reqFlags ← readWord data 2
    let qdcount ← readWord data 4
    let ancount ← readWord data 6
    let nscount ← readWord data 8
    let arcount ← readWord data 10
    .ok ⟨id, reqFlags, qdcount, ancount, nscount, arcount⟩
  else .ok ⟨0, 0, 0, 0, 0, 0⟩

/-- `(len & 0xC0) == 0xC0` -/
def isPointer (len : ℕ) : Prop := len &&& 0xC0 = 0xC0

instance (len : ℕ) : Decidable (isPointer len) := inferInstanceAs (Decidable (_ = _))

/-- The loop of `decodeName` with the running label length `len`, and the `++curPos` after it. -/
def decodeNameLoop (response : Bytes) (name : Bytes) (len curPos : ℕ) :
    Except OutOfBounds (Bytes × ℕ) :=
  match hread : readAt response curPos with
  | .error e => .error e
  | .ok b =>
    if b = 0 then .ok (name, curPos + 1)
    else if isPointer len then .ok (name, curPos + 1)
    else if len = 0 then decodeNameLoop response (name ++ [0x2e]) b.toNat (curPos + 1)
    else decodeNameLoop response (name ++ [b]) (len - 1) (curPos + 1)
termination_by response.length - curPos
decreasing_by
  all_goals
    have hlt := (List.getElem?_eq_some_iff.mp (readAt_eq_ok_iff.mp hread)).1
    omega

/-- `decodeName` -/
def decodeName (response : Bytes) (curPos : ℕ) : Except OutOfBounds (Bytes × ℕ) := do
  let len ← readAt response curPos
  decodeNameLoop response [] len.toNat (curPos + 1)

/-- `decodeFooter` -/
def decodeFooter (response : Bytes) (curPos : ℕ) : Except OutOfBounds (Footer × ℕ) := do
  let qtype ← readWord response curPos
  let qclass ← readWord response (curPos + 2)
  .ok (⟨qtype, qclass⟩, curPos + 4)

/-- `decodeAnswer` -/
def decodeAnswer (response : Bytes) (curPos : ℕ) : Except OutOfBounds (Answer × ℕ) := do
  let qtype ← readWord response curPos
  let qclass ← readWord response (curPos + 2)
  let t0 ← readAt response (curPos + 4)
  let t1 ← readAt response (curPos + 5)
  let t2 ← readAt response (curPos + 6)
  let t3 ← readAt response (curPos + 7)
  let rdlength ← readWord response (curPos + 8)
  .ok (⟨qtype, qclass, networkEndian32 t0 t1 t2 t3, rdlength⟩, curPos + 10)

/-! ## The Decoder -/

/-- The question loop of `decode`, `n` questions to go. -/
def decodeQuestions (data : Bytes) : (n : ℕ) → Qanswer → ℕ → Except OutOfBounds (Qanswer × ℕ)
  | 0, reply, curPos => .ok (reply, curPos)
  | n + 1, reply, curPos => do
    let (name, curPos) ← decodeName data curPos
    let (_, curPos) ← decodeFooter data curPos
    decodeQuestions data n { reply with name } curPos

/-- The address branches of the answer loop: an address record of class Internet is added to the
reply, and the cursor moves behind the bytes of the address. -/
def decodeAddress (data : Bytes) (answer : Answer) (reply : Qanswer) (curPos : ℕ) :
    Except OutOfBounds (Qanswer × ℕ) :=
  if answer.qclass = Qclass.Internet then
    if answer.rdlength = 4 ∧ answer.qtype = Qtype.A then do
      let src ← readVector data curPos 4
      let addr ← IpAddr.setIpV4 src.toList
      .ok ({ reply with addr := reply.addr ++ [addr], valid := true }, curPos + 4)
    else if answer.rdlength = 16 ∧ answer.qtype = Qtype.Aaaa then do
      let netOrder ← readVector data curPos 16
      let addr := IpAddr.set netOrder
      .ok ({ reply with addr := reply.addr ++ [addr], valid := true }, curPos + 16)
    else .ok (reply, curPos)
  else .ok (reply, curPos)

/-- One round of the answer loop. `curPos += answer.rdlength` is the last statement of the round,
also after an address branch has moved the cursor. -/
def decodeRecord (data : Bytes) (timeStamp : TimePointNs) (reply : Qanswer) (curPos : ℕ) :
    Except OutOfBounds (Qanswer × ℕ) := do
  let (_, curPos) ← decodeName data curPos
  let (answer, curPos) ← decodeAnswer data curPos
  let reply := { reply with ttl := some (answer.ttl.toNat * ONE_SEC_IN_NS : ℕ), timeStamp }
  let (reply, curPos) ← decodeAddress data answer reply curPos
  .ok (reply, curPos + answer.rdlength.toNat)

/-- The answer loop of `decode`, `n` answers to go; `k` clock readings were made before. -/
def decodeAnswers (data : Bytes) (clock : ℕ → TimePointNs) :
    (n k : ℕ) → Qanswer → ℕ → Except OutOfBounds (Qanswer × ℕ)
  | 0, _, reply, curPos => .ok (reply, curPos)
  | n + 1, k, reply, curPos => do
    let (reply, curPos) ← decodeRecord data (clock k) reply curPos
    decodeAnswers data clock n (k + 1) reply curPos

/-- `Query::decode`; `clock k` is the `k`-th reading of the steady clock during the call. -/
def decode (clock : ℕ → TimePointNs) (data : Bytes) : Except OutOfBounds Qanswer := do
  let header ← decodeHeader data
  let reply : Qanswer := ⟨false, header.id, [], [], none, clock 0⟩
  let (reply, curPos) ← decodeQuestions data header.qdcount.toNat reply HEADER_SIZE
  let (reply, _) ← decodeAnswers data clock header.ancount.toNat 1 reply curPos
  .ok reply

end Epoller.Query
