import Epoller.Foundation.Search
import Epoller.Query.Grammar

/-!
# Decoding Well-Formed Responses

Well-formed DNS responses as structures that carry their length bounds, the bytes
they travel as, and the addresses they list. `decode` returns those addresses as
long as no answer stands behind an address record: the address branches move the
cursor behind the address, and the last statement of the loop moves it by
`rdlength` again.

## Contents

- `WireName`, `Record`, `Response`: messages and their encodings
- `Response.addresses`: what a response lists
- `decodeRecord_encode`: one answer, and where it leaves the cursor
- `decodes_of_addressesLast`: the whole message
-/

namespace Epoller.Query

open Foundation

/-! ## Messages -/

/-- A label of 1 to 63 bytes. -/
structure Label where
  bytes : Bytes
  nonempty : bytes ≠ []
  short : bytes.length ≤ 63

/-- The length byte of the label and its bytes. -/
def Label.encode (label : Label) : Bytes := .ofNat label.bytes.length :: label.bytes

def Label.NulFree (label : Label) : Prop := ∀ b ∈ label.bytes, b ≠ 0

instance (label : Label) : Decidable label.NulFree :=
  inferInstanceAs (Decidable (∀ b ∈ label.bytes, b ≠ 0))

/-- A name in a message: one or more labels and a zero byte, or a compression pointer, which may
have labels before it. -/
inductive WireName where
  | labels (first : Label) (rest : List Label)
  | pointer (before : List Label) (high low : UInt8) (isPointer : isPointer high.toNat)

def WireName.encode : WireName → Bytes
  | labels first rest => (first :: rest).flatMap Label.encode ++ [0]
  | pointer before high low _ => before.flatMap Label.encode ++ [high, low]

/-- The labels joined by dots. -/
def joined (labels : List Label) : Bytes := [DOT].intercalate (labels.map Label.bytes)

/-- What `decodeName` makes of a name: the labels joined by dots; a pointer is not followed, but
leaves a dot behind each label before it. -/
def WireName.text : WireName → Bytes
  | labels first rest => joined (first :: rest)
  | pointer before _ _ _ => before.flatMap fun label => label.bytes ++ [DOT]

def WireName.NulFree : WireName → Prop
  | labels first rest => ∀ label ∈ first :: rest, label.NulFree
  | pointer before _ _ _ => ∀ label ∈ before, label.NulFree

/-- An answer; `ttl` are the four bytes of its time to live. -/
structure Record where
  name : WireName
  qtype : Qtype
  qclass : Qclass
  ttl : Vector UInt8 4
  rdata : Bytes
  rdata_short : rdata.length < 2 ^ 16

def Record.encode (r : Record) : Bytes :=
  r.name.encode ++ (wordBytes r.qtype ++ wordBytes r.qclass ++ r.ttl.toList ++
    wordBytes (.ofNat r.rdata.length) ++ r.rdata)

/-- The address an answer lists, in network order. -/
def Record.address (r : Record) : Option (Vector UInt8 16) :=
  if r.qclass = Qclass.Internet then
    if h : r.qtype = Qtype.A ∧ r.rdata.length = 4 then
      some (IpAddr.mapped r.rdata[0] r.rdata[1] r.rdata[2] r.rdata[3])
    else if h : r.qtype = Qtype.Aaaa ∧ r.rdata.length = 16 then
      some ⟨r.rdata.toArray, h.2⟩
    else none
  else none

/-- A response with one question; `trailer` are the bytes behind the answers, such as the records
of the authority and the additional section. -/
structure Response where
  id : UInt16
  reqFlags : UInt16
  nscount : UInt16
  arcount : UInt16
  firstLabel : Label
  moreLabels : List Label
  question_nulFree : ∀ label ∈ firstLabel :: moreLabels, label.NulFree
  qtype : Qtype
  qclass : Qclass
  answers : List Record
  answers_short : answers.length < 2 ^ 16
  trailer : Bytes

def Response.header (m : Response) : Bytes :=
  wordBytes m.id ++ wordBytes m.reqFlags ++ wordBytes 1 ++ wordBytes (.ofNat m.answers.length) ++
    wordBytes m.nscount ++ wordBytes m.arcount

def Response.question (m : Response) : Bytes :=
  (WireName.labels m.firstLabel m.moreLabels).encode ++ (wordBytes m.qtype ++ wordBytes m.qclass)

def Response.encode (m : Response) : Bytes :=
  m.header ++ (m.question ++ (m.answers.flatMap Record.encode ++ m.trailer))

/-- The addresses a response lists, in message order. -/
def Response.addresses (m : Response) : List (Vector UInt8 16) :=
  m.answers.filterMap Record.address

/-- `decode` returns exactly the addresses of the response and says whether there are any. -/
def DecodesAddresses (clock : ℕ → TimePointNs) (m : Response) : Prop :=
  ∃ reply, decode clock m.encode = .ok reply ∧
    reply.addr.map IpAddr.get = m.addresses ∧ (reply.valid = true ↔ m.addresses ≠ [])

/-- No answer stands behind an address record, and no name of an answer contains a NUL byte. -/
def Response.AddressesLast (m : Response) : Prop :=
  (∀ r ∈ m.answers.dropLast, r.address = none) ∧ ∀ r ∈ m.answers, r.name.NulFree

/-! ## Names -/

theorem not_isPointer_of_le {len : ℕ} (h : len ≤ 63) : ¬ isPointer len := by
  have hall : ∀ len ∈ List.range 64, ¬ isPointer len := by decide
  exact hall len (List.mem_range.mpr (by omega))

theorem isPointer.ne_zero {b : UInt8} (h : isPointer b.toNat) : b ≠ 0 := by
  rintro rfl
  exact not_isPointer_zero h

/-- Inside a label: its remaining bytes, then what stands behind it. -/
theorem nameTail_of_label {bytes w text : Bytes} (hshort : bytes.length ≤ 63)
    (hnul : ∀ b ∈ bytes, b ≠ 0) (h : NameTail 0 w text) :
    NameTail bytes.length (bytes ++ w) (bytes ++ text) := by
  induction bytes with
  | nil => exact h
  | cons b bytes ih =>
    rw [List.length_cons] at hshort ⊢
    refine .char (hnul b (List.mem_cons_self ..)) (not_isPointer_of_le hshort) (by omega) ?_
    exact ih (by omega) fun b' hb' => hnul b' (List.mem_cons_of_mem _ hb')

theorem Label.lengthByte (label : Label) :
    (UInt8.ofNat label.bytes.length).toNat = label.bytes.length := by
  have := label.short
  rw [UInt8.toNat_ofNat']
  omega

theorem Label.lengthByte_ne_zero (label : Label) : UInt8.ofNat label.bytes.length ≠ 0 := by
  intro hzero
  have hlen := label.lengthByte
  rw [hzero] at hlen
  exact label.nonempty (List.length_eq_zero_iff.mp hlen.symm)

/-- Behind a finished label: more labels, then what ends the name. -/
theorem nameTail_of_labels {labels : List Label} {w text : Bytes}
    (hnul : ∀ label ∈ labels, label.NulFree) (h : NameTail 0 w text) :
    NameTail 0 (labels.flatMap Label.encode ++ w)
      (labels.flatMap (fun label => DOT :: label.bytes) ++ text) := by
  induction labels with
  | nil => exact h
  | cons label labels ih =>
    have htail := ih fun l hl => hnul l (List.mem_cons_of_mem _ hl)
    -- behind a finished label the length byte of the next one is read as a dot
    have hlabel := nameTail_of_label label.short (hnul label (List.mem_cons_self ..)) htail
    rw [← label.lengthByte] at hlabel
    rw [List.flatMap_cons, List.flatMap_cons, Label.encode, List.append_assoc, List.append_assoc,
      List.cons_append, List.cons_append]
    exact .label label.lengthByte_ne_zero hlabel

theorem joined_cons (first : Label) (rest : List Label) :
    joined (first :: rest) = first.bytes ++ rest.flatMap fun label => DOT :: label.bytes := by
  rw [joined, List.map_cons, intercalate_cons_eq_append_flatMap, List.flatMap_map]

/-- Behind a label a pointer is a length byte, and is read as a dot. -/
theorem flatMap_dot_append (first : Label) (rest : List Label) :
    first.bytes ++ (rest.flatMap (fun label => DOT :: label.bytes) ++ [DOT]) =
      (first :: rest).flatMap fun label => label.bytes ++ [DOT] := by
  induction rest generalizing first with
  | nil => simp
  | cons label rest ih =>
    rw [List.flatMap_cons, List.flatMap_cons, ← ih label]
    simp

/-- The byte behind a length byte with both pointer bits ends the name, whatever it is. -/
theorem nameTail_of_pointer {high : UInt8} (low : UInt8) (h : isPointer high.toNat) :
    NameTail high.toNat [low] [] := by
  by_cases hlow : low = 0
  · exact hlow ▸ .zero _
  · exact .pointer hlow h

/-- A NUL-free name is a length byte followed by a tail. -/
theorem WireName.nameTail (name : WireName) (hnul : name.NulFree) :
    ∃ l w, name.encode = l :: w ∧ NameTail l.toNat w name.text := by
  cases name with
  | labels first rest =>
    have htail := nameTail_of_labels
      (fun label hl => hnul label (List.mem_cons_of_mem _ hl)) (.zero 0)
    have hfirst := nameTail_of_label first.short (hnul first (List.mem_cons_self ..)) htail
    rw [← first.lengthByte, List.append_nil, ← joined_cons] at hfirst
    exact ⟨_, _, by simp [encode, Label.encode], hfirst⟩
  | pointer before high low hptr =>
    have hend := nameTail_of_pointer low hptr
    cases before with
    | nil => exact ⟨high, [low], rfl, hend⟩
    | cons first rest =>
      have htail := nameTail_of_labels
        (fun label hl => hnul label (List.mem_cons_of_mem _ hl)) (.label hptr.ne_zero hend)
      have hfirst := nameTail_of_label first.short (hnul first (List.mem_cons_self ..)) htail
      rw [← first.lengthByte] at hfirst
      have htext : (pointer (first :: rest) high low hptr).text =
          first.bytes ++ (rest.flatMap (fun label => DOT :: label.bytes) ++ [DOT]) :=
        (flatMap_dot_append first rest).symm
      exact ⟨_, _, by simp [encode, Label.encode], htext ▸ hfirst⟩

/-- `decodeName` reads a NUL-free name to its end. -/
theorem decodeName_encode {data : Bytes} {pos : ℕ} {name : WireName} (hnul : name.NulFree)
    (h : StandsAt data pos name.encode) :
    decodeName data pos = .ok (name.text, pos + name.encode.length) := by
  obtain ⟨l, w, hname, htail⟩ := name.nameTail hnul
  rw [hname] at h ⊢
  exact decodeName_eq_ok_iff.mpr ⟨l, w, htail, h, rfl⟩

/-! ## Answers -/

/-- The ten bytes between the name and the data of an answer. -/
def Record.fixed (r : Record) : AnswerBytes where
  q0 := (U16Swap.ofD16 r.qtype).b1
  q1 := (U16Swap.ofD16 r.qtype).b0
  c0 := (U16Swap.ofD16 r.qclass).b1
  c1 := (U16Swap.ofD16 r.qclass).b0
  t0 := r.ttl.get 0
  t1 := r.ttl.get 1
  t2 := r.ttl.get 2
  t3 := r.ttl.get 3
  r0 := (U16Swap.ofD16 (.ofNat r.rdata.length)).b1
  r1 := (U16Swap.ofD16 (.ofNat r.rdata.length)).b0

theorem Record.encode_eq (r : Record) :
    r.encode = r.name.encode ++ (r.fixed.word ++ r.rdata) := by
  have httl : r.ttl.toList = [r.ttl.get 0, r.ttl.get 1, r.ttl.get 2, r.ttl.get 3] :=
    IpAddr.toList_four r.ttl
  simp [encode, AnswerBytes.word, fixed, wordBytes, httl]

theorem Record.answer_fixed (r : Record) :
    r.fixed.answer =
      ⟨r.qtype, r.qclass, networkEndian32 (r.ttl.get 0) (r.ttl.get 1) (r.ttl.get 2) (r.ttl.get 3),
        .ofNat r.rdata.length⟩ := by
  simp only [AnswerBytes.answer, fixed, networkEndian16_wordBytes]

theorem Record.toNat_rdlength (r : Record) :
    (UInt16.ofNat r.rdata.length).toNat = r.rdata.length := by
  rw [UInt16.toNat_ofNat', Nat.mod_eq_of_lt r.rdata_short]

theorem Record.rdlength_eq_iff (r : Record) {n : ℕ} (hn : n < 2 ^ 16) :
    UInt16.ofNat r.rdata.length = UInt16.ofNat n ↔ r.rdata.length = n := by
  rw [← UInt16.toNat_inj, r.toNat_rdlength, UInt16.toNat_ofNat', Nat.mod_eq_of_lt hn]

/-- Bytes the cursor is moved too far behind an answer. -/
def Record.overshoot (r : Record) : ℕ := if r.address = none then 0 else r.rdata.length

/-- The reply after one more answer. -/
structure Extends (reply reply' : Qanswer) (found : List (Vector UInt8 16)) : Prop where
  addr : reply'.addr.map IpAddr.get = reply.addr.map IpAddr.get ++ found
  valid : reply'.valid = (reply.valid || !found.isEmpty)

theorem Extends.refl (reply : Qanswer) : Extends reply reply [] := ⟨by simp, by simp⟩

theorem Extends.trans {a b c : Qanswer} {found found' : List (Vector UInt8 16)}
    (h : Extends a b found) (h' : Extends b c found') : Extends a c (found ++ found') := by
  refine ⟨?_, ?_⟩
  · rw [h'.addr, h.addr, List.append_assoc]
  · rw [h'.valid, h.valid]
    cases found <;> simp

/-- The address branches add the address of the record and move the cursor behind it. -/
theorem decodeAddress_encode {data : Bytes} {pos : ℕ} (r : Record) (reply : Qanswer)
    (h : StandsAt data pos r.rdata) :
    ∃ reply', decodeAddress data r.fixed.answer reply pos = .ok (reply', pos + r.overshoot) ∧
      Extends reply reply' r.address.toList := by
  -- the length travels in 16 bits without loss
  have hfour : UInt16.ofNat r.rdata.length = 4 ↔ r.rdata.length = 4 :=
    r.rdlength_eq_iff (n := 4) (by decide)
  have hsixteen : UInt16.ofNat r.rdata.length = 16 ↔ r.rdata.length = 16 :=
    r.rdlength_eq_iff (n := 16) (by decide)
  simp only [decodeAddress, r.answer_fixed, hfour, hsixteen]
  by_cases hclass : r.qclass = Qclass.Internet
  · by_cases hA : r.qtype = Qtype.A ∧ r.rdata.length = 4
    · have haddr : r.address =
          some (IpAddr.mapped r.rdata[0] r.rdata[1] r.rdata[2] r.rdata[3]) := by
        simp [Record.address, hclass, hA]
      have hover : r.overshoot = 4 := by simp [Record.overshoot, haddr, hA.2]
      have hread : readVector data pos 4 = .ok ⟨r.rdata.toArray, hA.2⟩ :=
        readVector_eq_ok_iff.mpr h
      simp only [hclass, hA, and_self, if_true, hread, ok_bind, IpAddr.setIpV4_toList, hover, haddr]
      exact ⟨_, rfl, by simp, by simp⟩
    · by_cases hAaaa : r.qtype = Qtype.Aaaa ∧ r.rdata.length = 16
      · have haddr : r.address = some ⟨r.rdata.toArray, hAaaa.2⟩ := by
          simp [Record.address, hclass, hAaaa]
        have hover : r.overshoot = 16 := by simp [Record.overshoot, haddr, hAaaa.2]
        have hread : readVector data pos 16 = .ok ⟨r.rdata.toArray, hAaaa.2⟩ :=
          readVector_eq_ok_iff.mpr h
        rw [and_comm] at hA
        simp only [hclass, hAaaa, and_self, if_true, hread, ok_bind, hover, haddr]
        exact ⟨_, rfl, by simp, by simp⟩
      · have haddr : r.address = none := by simp [Record.address, hA, hAaaa]
        have hover : r.overshoot = 0 := by simp [Record.overshoot, haddr]
        rw [and_comm] at hA hAaaa
        simp only [hclass, hA, hAaaa, if_true, if_false, hover, haddr]
        exact ⟨_, rfl, .refl _⟩
  · have haddr : r.address = none := by simp [Record.address, hclass]
    have hover : r.overshoot = 0 := by simp [Record.overshoot, haddr]
    simp only [hclass, if_false, hover, haddr]
    exact ⟨_, rfl, .refl _⟩

/-- **One round of the answer loop**: the address of the record is added, and the cursor stands
`overshoot` bytes behind the record. -/
theorem decodeRecord_encode {data : Bytes} {pos : ℕ} (r : Record) (timeStamp : TimePointNs)
    (reply : Qanswer) (hnul : r.name.NulFree) (h : StandsAt data pos r.encode) :
    ∃ reply', decodeRecord data timeStamp reply pos =
        .ok (reply', pos + r.encode.length + r.overshoot) ∧
      Extends reply reply' r.address.toList := by
  rw [r.encode_eq] at h ⊢
  -- the record is its name, the ten fixed bytes and its data, one behind the other
  obtain ⟨hname, hrest⟩ := standsAt_append.mp h
  obtain ⟨hfixed, hrdata⟩ := standsAt_append.mp hrest
  have htext := decodeName_encode hnul hname
  have hanswer := decodeAnswer_eq_ok_iff.mpr ⟨r.fixed, hfixed, rfl, rfl⟩
  obtain ⟨reply', haddr, hext⟩ := decodeAddress_encode r
    { reply with
      ttl := some (r.fixed.answer.ttl.toNat * ONE_SEC_IN_NS : ℕ), timeStamp := timeStamp } hrdata
  rw [r.fixed.length_word] at haddr
  refine ⟨reply', ?_, hext.addr, hext.valid⟩
  -- the cursor has been moved behind the data already if the record is an address
  have hrdlength : r.fixed.answer.rdlength.toNat = r.rdata.length := by
    rw [r.answer_fixed, r.toNat_rdlength]
  simp only [decodeRecord, htext, hanswer, haddr, ok_bind, hrdlength, List.length_append,
    r.fixed.length_word]
  congr 2
  omega

/-- The answer loop over records of which only the last may be an address record. -/
theorem decodeAnswers_encode {data : Bytes} (clock : ℕ → TimePointNs) {rs : List Record}
    (hnul : ∀ r ∈ rs, r.name.NulFree) (hlast : ∀ r ∈ rs.dropLast, r.address = none) :
    ∀ (k : ℕ) (reply : Qanswer) {pos : ℕ}, StandsAt data pos (rs.flatMap Record.encode) →
      ∃ reply' pos', decodeAnswers data clock rs.length k reply pos = .ok (reply', pos') ∧
        Extends reply reply' (rs.filterMap Record.address) := by
  induction rs with
  | nil =>
    intro k reply pos _
    exact ⟨reply, pos, rfl, .refl _⟩
  | cons r rs ih =>
    intro k reply pos h
    rw [List.flatMap_cons] at h
    obtain ⟨hr, hrs⟩ := standsAt_append.mp h
    obtain ⟨reply', hrecord, hext⟩ :=
      decodeRecord_encode r (clock k) reply (hnul r (List.mem_cons_self ..)) hr
    have hfound : (r :: rs).filterMap Record.address =
        r.address.toList ++ rs.filterMap Record.address := by
      cases haddr : r.address <;> simp [haddr]
    cases rs with
    | nil =>
      refine ⟨reply', pos + r.encode.length + r.overshoot, ?_, ?_⟩
      · simp only [decodeAnswers, List.length_cons, List.length_nil, hrecord, ok_bind]
      · rw [hfound]
        simpa using hext
    | cons r' rs =>
      -- `r` is not the last answer, so the cursor stands exactly behind it
      have hnone : r.address = none := hlast r (List.mem_cons_self ..)
      have hover : r.overshoot = 0 := by simp [Record.overshoot, hnone]
      rw [hover, Nat.add_zero] at hrecord
      obtain ⟨reply'', pos', hloop, hext'⟩ := ih
        (fun x hx => hnul x (List.mem_cons_of_mem _ hx))
        (fun x hx => hlast x (List.mem_cons_of_mem _ hx)) (k + 1) reply' hrs
      refine ⟨reply'', pos', ?_, hfound ▸ hext.trans hext'⟩
      rw [List.length_cons, decodeAnswers, hrecord, ok_bind]
      exact hloop

/-! ## The Whole Message -/

theorem readWord_wordBytes {data : Bytes} {pos : ℕ} {word : UInt16}
    (h : StandsAt data pos (wordBytes word)) : readWord data pos = .ok word := by
  simp only [wordBytes, standsAt_cons] at h
  exact readWord_eq_ok_iff.mpr ⟨_, _, h.1, h.2.1, networkEndian16_wordBytes word⟩

@[simp] theorem length_wordBytes (word : UInt16) : (wordBytes word).length = 2 := rfl

theorem Response.length_header (m : Response) : m.header.length = HEADER_SIZE := by
  simp [header, HEADER_SIZE]

/-- `decodeHeader` reads the six words of the header. -/
theorem decodeHeader_encode (m : Response) :
    decodeHeader m.encode =
      .ok ⟨m.id, m.reqFlags, 1, .ofNat m.answers.length, m.nscount, m.arcount⟩ := by
  have hlen : HEADER_SIZE ≤ m.encode.length := by
    rw [Response.encode, List.length_append, m.length_header]
    omega
  have hheader : StandsAt m.encode 0 m.header := List.prefix_append ..
  simp only [Response.header, standsAt_append, List.length_append, length_wordBytes] at hheader
  -- the six words in their order
  obtain ⟨⟨⟨⟨⟨hid, hflags⟩, hqd⟩, han⟩, hns⟩, har⟩ := hheader
  rw [decodeHeader, if_pos hlen, readWord_wordBytes hid, readWord_wordBytes hflags,
    readWord_wordBytes hqd, readWord_wordBytes han, readWord_wordBytes hns,
    readWord_wordBytes har]
  rfl

/-- `decodeQuestions` reads the question and leaves the cursor behind it. -/
theorem decodeQuestions_encode (m : Response) (reply : Qanswer) :
    decodeQuestions m.encode 1 reply HEADER_SIZE =
      .ok ({ reply with name := joined (m.firstLabel :: m.moreLabels) },
        HEADER_SIZE + m.question.length) := by
  have hquestion : StandsAt m.encode HEADER_SIZE m.question := by
    rw [← m.length_header]
    exact standsAt_of_eq (m.answers.flatMap Record.encode ++ m.trailer)
      (by simp [Response.encode])
  obtain ⟨hname, hfooter⟩ := standsAt_append.mp hquestion
  have hnul : (WireName.labels m.firstLabel m.moreLabels).NulFree := m.question_nulFree
  have htext := decodeName_encode hnul hname
  have hdecoded := decodeFooter_eq_ok_iff.mpr
    ⟨⟨(U16Swap.ofD16 m.qtype).b1, (U16Swap.ofD16 m.qtype).b0, (U16Swap.ofD16 m.qclass).b1,
      (U16Swap.ofD16 m.qclass).b0⟩, hfooter, rfl, rfl⟩
  simp only [decodeQuestions, htext, hdecoded, ok_bind, Response.question, List.length_append,
    length_wordBytes, WireName.text]
  congr 2

/-- **Decoding a well-formed response**: if no answer stands behind an address record, `decode`
returns exactly the addresses the response lists. -/
theorem decodes_of_addressesLast (clock : ℕ → TimePointNs) (m : Response)
    (h : m.AddressesLast) : DecodesAddresses clock m := by
  have hanswers : StandsAt m.encode (HEADER_SIZE + m.question.length)
      (m.answers.flatMap Record.encode) := by
    rw [← m.length_header, ← List.length_append]
    exact standsAt_of_eq m.trailer (by simp [Response.encode])
  have hcount : (UInt16.ofNat m.answers.length).toNat = m.answers.length := by
    rw [UInt16.toNat_ofNat', Nat.mod_eq_of_lt m.answers_short]
  -- the question, then the answers from the byte behind it
  have hquestions := decodeQuestions_encode m ⟨false, m.id, [], [], none, clock 0⟩
  obtain ⟨reply, pos, hloop, hext⟩ := decodeAnswers_encode clock h.2 h.1 1
    ⟨false, m.id, joined (m.firstLabel :: m.moreLabels), [], none, clock 0⟩ hanswers
  refine ⟨reply, ?_, hext.addr, ?_⟩
  · simp only [decode, decodeHeader_encode, ok_bind, hcount, UInt16.toNat_one, hquestions, hloop]
  · rw [hext.valid, Response.addresses]
    simp

/-- A response to the question for `a`, of type A and class Internet. -/
def Response.ofAnswers (rs : List Record) (h : rs.length < 2 ^ 16) : Response where
  id := 7
  reqFlags := 0x8180
  nscount := 0
  arcount := 0
  firstLabel := ⟨[0x61], by decide, by decide⟩
  moreLabels := []
  question_nulFree := by simp [Label.NulFree]
  qtype := Qtype.A
  qclass := Qclass.Internet
  answers := rs
  answers_short := h
  trailer := []

/-- An answer for the name of the question, alive for a minute. -/
def Record.ofRdata (qtype : Qtype) (rdata : Bytes) (h : rdata.length < 2 ^ 16) : Record where
  name := .pointer [] 0xC0 0x0C (by decide)
  qtype := qtype
  qclass := Qclass.Internet
  ttl := #v[0, 0, 0, 60]
  rdata := rdata
  rdata_short := h

/-- An answer of type CNAME (5) and an address behind it. -/
theorem decodes_cname_then_address :
    DecodesAddresses (fun _ => 0) (.ofAnswers
      [.ofRdata 5 [1, 0x62, 0] (by decide), .ofRdata Qtype.A [192, 0, 2, 1] (by decide)]
      (by decide)) :=
  decodes_of_addressesLast _ _ ⟨by decide, by simp [Response.ofAnswers, Record.ofRdata,
    WireName.NulFree]⟩

/-- Two addresses: behind the first the cursor is four bytes inside the second record, and the
record read from there ends beyond the datagram. -/
theorem decode_loses_second_address : ¬ ∀ clock m, DecodesAddresses clock m := by
  intro h
  obtain ⟨reply, hreply, -⟩ := h (fun _ => 0) (.ofAnswers
    [.ofRdata Qtype.A [192, 0, 2, 1] (by decide), .ofRdata Qtype.A [192, 0, 2, 2] (by decide)]
    (by decide))
  have herror : decode (fun _ => 0) (Response.ofAnswers
      [.ofRdata Qtype.A [192, 0, 2, 1] (by decide), .ofRdata Qtype.A [192, 0, 2, 2] (by decide)]
      (by decide)).encode = .error ⟨51, 51⟩ := by decide +kernel
  rw [herror] at hreply
  cases hreply

/-- `AddressesLast` is not necessary: the bytes the cursor finds inside a record can happen to look
like a record without an address. -/
theorem exists_decodes_not_addressesLast :
    ∃ clock m, DecodesAddresses clock m ∧ ¬ m.AddressesLast := by
  refine ⟨fun _ => 0, .ofAnswers
    [.ofRdata Qtype.A [192, 0, 2, 1] (by decide), .ofRdata 16 [0, 0, 0, 0, 0] (by decide)]
    (by decide), ?_, fun h => absurd h.1 (by decide)⟩
  have hdecoded : (decode (fun _ => 0) (Response.ofAnswers
      [.ofRdata Qtype.A [192, 0, 2, 1] (by decide), .ofRdata 16 [0, 0, 0, 0, 0] (by decide)]
      (by decide)).encode).map (fun reply => (reply.addr.map IpAddr.get, reply.valid)) =
      .ok ([IpAddr.mapped 192 0 2 1], true) := by decide +kernel
  cases hreply : decode (fun _ => 0) (Response.ofAnswers
      [.ofRdata Qtype.A [192, 0, 2, 1] (by decide), .ofRdata 16 [0, 0, 0, 0, 0] (by decide)]
      (by decide)).encode with
  | error e =>
    rw [hreply] at hdecoded
    cases hdecoded
  | ok reply =>
    rw [hreply] at hdecoded
    simp only [Except.map, Except.ok.injEq, Prod.mk.injEq] at hdecoded
    refine ⟨reply, hreply, hdecoded.1.trans (by decide), by simp [hdecoded.2]; decide⟩

end Epoller.Query
