import Epoller.Query.Encode
import Epoller.Query.Response

/-!
# Names and Queries, There and Back

What `encodeName` writes of a host name with two or more labels is a name as
`decodeName` reads it, and a query is a response without answers. A host name of a
single label is encoded with a wrong length byte.

## Contents

- `decodeName_reads`: `decodeName` on every name that can stand in a message
- `HostName`: labels without dots and NUL bytes
- `encodeName_hostName`: such a name in a query
- `roundTrips_iff_rest`: which names come back from `resolve` and `decode`
-/

namespace Epoller.Query

open Foundation

/-! ## Reading a Name -/

/-- **Reading a name**: the cursor stands right behind it, nothing behind it was read, and the text
of a name without a pointer is its labels joined by dots. -/
theorem decodeName_reads {data : Bytes} {pos : ℕ} (name : WireName) (hnul : name.NulFree)
    (h : StandsAt data pos name.encode) :
    decodeName data pos = .ok (name.text, pos + name.encode.length) ∧
      decodeName (data.take (pos + name.encode.length)) pos =
        .ok (name.text, pos + name.encode.length) ∧
      ∀ first rest, name = .labels first rest →
        name.text = [DOT].intercalate ((first :: rest).map Label.bytes) := by
  refine ⟨decodeName_encode hnul h, decodeName_encode hnul h.take, ?_⟩
  rintro first rest rfl
  rfl

/-- Behind one byte the label `a` and a pointer whose second byte is zero -/
theorem decodeName_reads_pointer :
    ∃ text, decodeName [7, 1, 0x61, 0xc0, 0, 5] 1 = .ok (text, 5) := by
  have hreads := @decodeName_reads [7, 1, 0x61, 0xc0, 0, 5] 1
    (.pointer [⟨[0x61], by decide, by decide⟩] 0xc0 0 (by decide))
    (by simp [WireName.NulFree, Label.NulFree]) (by decide)
  exact ⟨_, hreads.1⟩

/-! ## Host Names -/

/-- A host name: one or more labels, whose bytes are neither dots nor NUL -/
structure HostName where
  first : Label
  rest : List Label
  nulFree : ∀ label ∈ first :: rest, label.NulFree
  dotFree : ∀ label ∈ first :: rest, DOT ∉ label.bytes

namespace HostName

variable (name : HostName)

def labels : List Label := name.first :: name.rest

/-- The labels joined by dots -/
def text : Bytes := joined name.labels

/-- The name as it stands in a message -/
def wire : WireName := .labels name.first name.rest

/-- A query for the name is a response without answers. -/
def query (reqNo : UInt16) (qType : Qtype) : Response where
  id := reqNo
  reqFlags := 0x0100
  nscount := 0
  arcount := 0
  firstLabel := name.first
  moreLabels := name.rest
  question_nulFree := name.nulFree
  qtype := qType
  qclass := Qclass.Internet
  answers := []
  answers_short := by decide
  trailer := []

/-- `resolve` writes the header, for each label its length byte and its bytes, a zero byte, the type
and the class. -/
def Emitted (reqNo : UInt16) (qType : Qtype) : Prop :=
  resolve reqNo name.text qType =
    queryHeader reqNo ++
      (name.labels.flatMap (fun label => .ofNat label.bytes.length :: label.bytes) ++ [0] ++
        (wordBytes qType ++ wordBytes Qclass.Internet))

/-- `decode` finds the number and the name in what `resolve` has written, and no address. -/
def RoundTrips (clock : ℕ → TimePointNs) (reqNo : UInt16) (qType : Qtype) : Prop :=
  ∃ reply, decode clock (resolve reqNo name.text qType) = .ok reply ∧
    reply.reqNo = reqNo ∧ reply.name = name.text ∧ reply.addr = [] ∧ reply.valid = false

variable {name}

theorem nonempty_and_dotFree (name : HostName) :
    ∀ l ∈ name.labels.map Label.bytes, l ≠ [] ∧ DOT ∉ l := by
  intro l hl
  obtain ⟨label, hlabel, rfl⟩ := List.mem_map.mp hl
  exact ⟨label.nonempty, name.dotFree label hlabel⟩

theorem writtenLabel_bytes (label : Label) : writtenLabel label.bytes = label.encode := by
  rw [writtenLabel_eq_cutLabel label.short, cutLabel, Nat.min_eq_left label.short, List.take_length,
    Label.encode]

/-- Two or more labels are encoded as they stand in a message. -/
theorem encodeName_hostName (hrest : name.rest ≠ []) (query : Bytes) :
    encodeName name.text query = query ++ name.wire.encode := by
  obtain ⟨second, rest, hlabels⟩ := List.exists_cons_of_ne_nil hrest
  have h := name.nonempty_and_dotFree
  rw [text, joined, labels, hlabels, List.map_cons, List.map_cons]
  rw [labels, hlabels, List.map_cons, List.map_cons] at h
  rw [encodeName_labels h, wire, WireName.encode, hlabels, ← List.map_cons, ← List.map_cons,
    List.flatMap_map]
  simp only [writtenLabel_bytes]

/-- A query for two or more labels is a well-formed message. -/
theorem resolve_eq_encode (hrest : name.rest ≠ []) (reqNo : UInt16) (qType : Qtype) :
    resolve reqNo name.text qType = (name.query reqNo qType).encode := by
  rw [resolve_eq reqNo qType (encodeName_hostName hrest)]
  simp [Response.encode, Response.header, Response.question, query, queryHeader, wire]

theorem decode_query (clock : ℕ → TimePointNs) (reqNo : UInt16) (qType : Qtype) :
    decode clock (name.query reqNo qType).encode =
      .ok ⟨false, reqNo, name.text, [], none, clock 0⟩ := by
  simp only [decode, decodeHeader_encode, ok_bind, UInt16.toNat_one, decodeQuestions_encode]
  rfl

/-- The length byte of a single label is one too small. -/
theorem not_emitted_of_single (hrest : name.rest = []) (reqNo : UInt16) (qType : Qtype) :
    ¬ name.Emitted reqNo qType := by
  intro hemitted
  have htext : name.text = name.first.bytes := by
    rw [text, joined, labels, hrest, List.map_singleton, List.intercalate_singleton]
  have hfirst := name.nonempty_and_dotFree name.first.bytes (by simp [labels])
  rw [Emitted, htext, resolve_eq reqNo qType (encodeName_label hfirst), labels, hrest] at hemitted
  -- the first byte behind the header
  have hlength := (List.cons.inj (List.append_cancel_left hemitted)).1
  have hpos := List.length_pos_iff.mpr name.first.nonempty
  have hshort := name.first.short
  rw [← UInt8.toNat_inj, UInt8.toNat_ofNat', UInt8.toNat_ofNat'] at hlength
  omega

/-- **There and back**: a query is written as it should be, and its number and name are found in it
again, if and only if the name has more than one label. -/
theorem roundTrips_iff_rest (name : HostName) (clock : ℕ → TimePointNs) (reqNo : UInt16)
    (qType : Qtype) :
    (name.Emitted reqNo qType ∧ name.RoundTrips clock reqNo qType) ↔ name.rest ≠ [] := by
  constructor
  · rintro ⟨hemitted, -⟩ hrest
    -- what `decode` makes of it does not matter: the query itself is wrong
    exact not_emitted_of_single hrest reqNo qType hemitted
  · intro hrest
    refine ⟨?_, _, resolve_eq_encode hrest reqNo qType ▸ decode_query clock reqNo qType,
      rfl, rfl, rfl, rfl⟩
    exact resolve_eq reqNo qType (encodeName_hostName hrest)

/-- The length byte of the host name `a` is 0, and what comes back is a dot. -/
theorem not_roundTrips_letter : ¬ ∀ (name : HostName) (clock : ℕ → TimePointNs) (reqNo : UInt16)
    (qType : Qtype), name.Emitted reqNo qType ∧ name.RoundTrips clock reqNo qType := by
  intro h
  obtain ⟨name, htext⟩ : ∃ name : HostName, name.text = [0x61] :=
    ⟨⟨⟨[0x61], by decide, by decide⟩, [], by simp [Label.NulFree], by decide⟩, rfl⟩
  obtain ⟨reply, hreply, -, hname, -⟩ := (h name (fun _ => 0) 7 Qtype.A).2
  -- the length byte 0 ends the name before its only character
  have hdecoded : decode (fun _ => 0) (resolve 7 [0x61] Qtype.A) =
      .ok ⟨false, 7, [DOT], [], none, 0⟩ := by
    decide +kernel
  rw [htext, hdecoded] at hreply
  rw [htext] at hname
  cases hreply
  exact absurd hname (by decide)

end HostName

end Epoller.Query
