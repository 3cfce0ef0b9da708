import Epoller.Query.Grammar

/-!
# Reads Within the Datagram

The counts of the header, the label lengths and `rdlength` drive the cursor of
`decode`, and only `decodeHeader` compares it with `data.size()`. A datagram is
decoded without leaving its bounds exactly when it holds what its header
announces (`Covered`); a header that announces more is read beyond its end.

The grammar follows the cursor, so it steps over the bytes of an address twice:
`decode` moves behind the address and then by `rdlength` once more.
-/

namespace Epoller.Query

open Foundation

/-! ## What the Loops Walk Over -/

/-- Bytes an answer's address branch copies. -/
def addressLength (answer : Answer) : ℕ :=
  if answer.qclass = Qclass.Internet then
    if answer.rdlength = 4 ∧ answer.qtype = Qtype.A then 4
    else if answer.rdlength = 16 ∧ answer.qtype = Qtype.Aaaa then 16
    else 0
  else 0

/-- `n` questions stand between two positions: each a name and four bytes. -/
inductive QuestionsAt (data : Bytes) : (n pos pos' : ℕ) → Prop where
  | zero (pos : ℕ) : QuestionsAt data 0 pos pos
  | succ {n pos pos' : ℕ} {l : UInt8} {w text : Bytes} {f : FooterBytes} :
      NameTail l.toNat w text → StandsAt data pos ((l :: w) ++ f.word) →
      QuestionsAt data n (pos + ((l :: w) ++ f.word).length) pos' →
      QuestionsAt data (n + 1) pos pos'

/-- `n` answers stand from a position on: each a name, ten bytes and, for an address record, the
bytes of the address. The next answer stands `rdlength` bytes behind; behind the last answer
nothing need stand. -/
inductive AnswersAt (data : Bytes) : (n pos : ℕ) → Prop where
  | zero (pos : ℕ) : AnswersAt data 0 pos
  | succ {n pos : ℕ} {l : UInt8} {w text body : Bytes} {f : AnswerBytes} :
      NameTail l.toNat w text → body.length = addressLength f.answer →
      StandsAt data pos ((l :: w) ++ (f.word ++ body)) →
      AnswersAt data n (pos + ((l :: w) ++ (f.word ++ body)).length + f.answer.rdlength.toNat) →
      AnswersAt data (n + 1) pos

/-- The `i`-th byte and the next as a number, high byte first. -/
def headerCount (data : Bytes) (i : ℕ) : ℕ :=
  (data.getD i 0).toNat * 256 + (data.getD (i + 1) 0).toNat

/-- The datagram is shorter than a header, or behind its header stand the questions and then the
answers it announces. -/
def Covered (data : Bytes) : Prop :=
  data.length < HEADER_SIZE ∨
    ∃ pos, QuestionsAt data (headerCount data 4) HEADER_SIZE pos ∧
      AnswersAt data (headerCount data 6) pos

/-! ## Questions -/

theorem decodeQuestions_ok_iff {data : Bytes} {n : ℕ} (reply : Qanswer) {pos pos' : ℕ} :
    (∃ reply', decodeQuestions data n reply pos = .ok (reply', pos')) ↔
      QuestionsAt data n pos pos' := by
  induction n generalizing reply pos with
  | zero =>
    simp only [decodeQuestions, Except.ok.injEq, Prod.mk.injEq, exists_eq_left']
    constructor
    · rintro rfl
      exact .zero pos
    · rintro ⟨⟩
      rfl
  | succ n ih =>
    constructor
    · rintro ⟨reply', h⟩
      obtain ⟨⟨name, mid⟩, hname, h⟩ := bind_eq_ok_iff.mp h
      obtain ⟨⟨footer, mid'⟩, hfooter, h⟩ := bind_eq_ok_iff.mp h
      -- what the two helpers have read stands at the cursor
      obtain ⟨l, w, htail, hw, rfl⟩ := decodeName_eq_ok_iff.mp hname
      obtain ⟨f, hf, -, rfl⟩ := decodeFooter_eq_ok_iff.mp hfooter
      refine .succ htail (standsAt_append.mpr ⟨hw, hf⟩) ?_
      rw [List.length_append, f.length_word, ← Nat.add_assoc]
      exact (ih _).mp ⟨reply', h⟩
    · intro h
      cases h with
      | @succ _ _ _ l w text f htail hstands hrest =>
        obtain ⟨hw, hf⟩ := standsAt_append.mp hstands
        rw [List.length_append, f.length_word, ← Nat.add_assoc] at hrest
        obtain ⟨reply', hreply⟩ := (ih { reply with name := text }).mpr hrest
        refine ⟨reply', bind_eq_ok_iff.mpr ⟨_, decodeName_eq_ok_iff.mpr ⟨l, w, htail, hw, rfl⟩, ?_⟩⟩
        exact bind_eq_ok_iff.mpr ⟨_, decodeFooter_eq_ok_iff.mpr ⟨f, hf, rfl, rfl⟩, hreply⟩

/-! ## Answers -/

theorem readVector_ok_iff {data : Bytes} {pos n : ℕ} :
    (∃ v, readVector data pos n = .ok v) ↔
      ∃ body : Bytes, body.length = n ∧ StandsAt data pos body := by
  simp only [readVector_eq_ok_iff]
  constructor
  · rintro ⟨v, hv⟩
    exact ⟨v.toList, v.length_toList, hv⟩
  · rintro ⟨body, rfl, hbody⟩
    exact ⟨⟨body.toArray, by simp⟩, by simpa using hbody⟩

/-- The address branches copy `addressLength` bytes from the cursor and move it behind them. -/
theorem decodeAddress_ok_iff {data : Bytes} {answer : Answer} (reply : Qanswer) {pos pos' : ℕ} :
    (∃ reply', decodeAddress data answer reply pos = .ok (reply', pos')) ↔
      (∃ body : Bytes, body.length = addressLength answer ∧ StandsAt data pos body) ∧
        pos' = pos + addressLength answer := by
  unfold decodeAddress addressLength
  split
  · split
    · rw [← readVector_ok_iff]
      constructor
      · rintro ⟨reply', h⟩
        obtain ⟨src, hsrc, h⟩ := bind_eq_ok_iff.mp h
        obtain ⟨addr, -, h⟩ := bind_eq_ok_iff.mp h
        cases h
        exact ⟨⟨src, hsrc⟩, rfl⟩
      · rintro ⟨⟨src, hsrc⟩, rfl⟩
        have haddr := IpAddr.setIpV4_toList src
        exact ⟨_, bind_eq_ok_iff.mpr ⟨src, hsrc, bind_eq_ok_iff.mpr ⟨_, haddr, rfl⟩⟩⟩
    · split
      · rw [← readVector_ok_iff]
        constructor
        · rintro ⟨reply', h⟩
          obtain ⟨netOrder, hread, h⟩ := bind_eq_ok_iff.mp h
          cases h
          exact ⟨⟨netOrder, hread⟩, rfl⟩
        · rintro ⟨⟨netOrder, hread⟩, rfl⟩
          exact ⟨_, bind_eq_ok_iff.mpr ⟨netOrder, hread, rfl⟩⟩
      · simp [eq_comm]
  · simp [eq_comm]

theorem decodeAnswers_ok_iff {data : Bytes} (clock : ℕ → TimePointNs) {n : ℕ} (k : ℕ)
    (reply : Qanswer) {pos : ℕ} :
    (∃ r, decodeAnswers data clock n k reply pos = .ok r) ↔ AnswersAt data n pos := by
  induction n generalizing k reply pos with
  | zero => simp [decodeAnswers, AnswersAt.zero]
  | succ n ih =>
    constructor
    · rintro ⟨r, h⟩
      obtain ⟨⟨reply', next⟩, hrecord, h⟩ := bind_eq_ok_iff.mp h
      obtain ⟨⟨name, mid⟩, hname, hrecord⟩ := bind_eq_ok_iff.mp hrecord
      obtain ⟨⟨answer, mid'⟩, hanswer, hrecord⟩ := bind_eq_ok_iff.mp hrecord
      obtain ⟨⟨reply'', mid''⟩, haddr, hrecord⟩ := bind_eq_ok_iff.mp hrecord
      cases hrecord
      obtain ⟨l, w, htail, hw, rfl⟩ := decodeName_eq_ok_iff.mp hname
      obtain ⟨f, hf, rfl, rfl⟩ := decodeAnswer_eq_ok_iff.mp hanswer
      -- the address is read behind the fixed bytes, and `rdlength` is counted from its end
      obtain ⟨⟨body, hlen, hbody⟩, rfl⟩ := (decodeAddress_ok_iff _).mp ⟨_, haddr⟩
      refine .succ htail hlen (standsAt_append.mpr ⟨hw, standsAt_append.mpr ⟨hf, hbody⟩⟩) ?_
      rw [List.length_append, List.length_append, f.length_word, hlen, ← Nat.add_assoc,
        ← Nat.add_assoc]
      exact (ih _ _).mp ⟨r, h⟩
    · intro h
      cases h with
      | @succ _ _ l w text body f htail hlen hstands hrest =>
        obtain ⟨hw, hstands⟩ := standsAt_append.mp hstands
        obtain ⟨hf, hbody⟩ := standsAt_append.mp hstands
        rw [List.length_append, List.length_append, f.length_word, hlen, ← Nat.add_assoc,
          ← Nat.add_assoc] at hrest
        obtain ⟨reply', haddr⟩ := (decodeAddress_ok_iff
          { reply with
            ttl := some (f.answer.ttl.toNat * ONE_SEC_IN_NS : ℕ), timeStamp := clock k }).mpr
          ⟨⟨body, hlen, hbody⟩, rfl⟩
        obtain ⟨r, hr⟩ := (ih (k + 1) reply').mpr hrest
        refine ⟨r, bind_eq_ok_iff.mpr ⟨(reply', _), ?_, hr⟩⟩
        refine bind_eq_ok_iff.mpr ⟨_, decodeName_eq_ok_iff.mpr ⟨l, w, htail, hw, rfl⟩, ?_⟩
        refine bind_eq_ok_iff.mpr ⟨_, decodeAnswer_eq_ok_iff.mpr ⟨f, hf, rfl, rfl⟩, ?_⟩
        exact bind_eq_ok_iff.mpr ⟨_, haddr, rfl⟩

/-! ## The Whole Datagram -/

theorem headerCount_eq_toNat {data : Bytes} {i : ℕ} {word : UInt16}
    (h : readWord data i = .ok word) : headerCount data i = word.toNat := by
  obtain ⟨d0, d1, hd0, hd1, rfl⟩ := readWord_eq_ok_iff.mp h
  simp [headerCount, toNat_networkEndian16, hd0, hd1]

theorem readWord_of_lt (data : Bytes) (i : ℕ) (h : i + 1 < data.length) :
    ∃ word, readWord data i = .ok word :=
  ⟨_, readWord_eq_ok_iff.mpr ⟨_, _, List.getElem?_eq_getElem (Nat.lt_of_succ_lt h),
    List.getElem?_eq_getElem h, rfl⟩⟩

/-- **Specification of `decodeHeader`**: it never reads beyond the end; a short datagram has no
questions and no answers. -/
theorem decodeHeader_ok (data : Bytes) :
    ∃ header, decodeHeader data = .ok header ∧
      (HEADER_SIZE ≤ data.length → header.qdcount.toNat = headerCount data 4 ∧
        header.ancount.toNat = headerCount data 6) ∧
      (data.length < HEADER_SIZE → header.qdcount = 0 ∧ header.ancount = 0) := by
  unfold decodeHeader HEADER_SIZE
  split
  · rename_i hlen
    obtain ⟨id, hid⟩ := readWord_of_lt data 0 (by omega)
    obtain ⟨flags, hflags⟩ := readWord_of_lt data 2 (by omega)
    obtain ⟨qd, hqd⟩ := readWord_of_lt data 4 (by omega)
    obtain ⟨an, han⟩ := readWord_of_lt data 6 (by omega)
    obtain ⟨ns, hns⟩ := readWord_of_lt data 8 (by omega)
    obtain ⟨ar, har⟩ := readWord_of_lt data 10 (by omega)
    refine ⟨⟨id, flags, qd, an, ns, ar⟩, ?_, fun _ => ⟨?_, ?_⟩, fun h => absurd hlen (by omega)⟩
    · simp only [hid, hflags, hqd, han, hns, har, ok_bind]
    · exact (headerCount_eq_toNat hqd).symm
    · exact (headerCount_eq_toNat han).symm
  · rename_i hlen
    exact ⟨_, rfl, fun h => absurd h hlen, fun _ => ⟨rfl, rfl⟩⟩

/-- No read of `decode` has an index at or beyond `data.size()`. -/
def ReadsInBounds (data : Bytes) : Prop :=
  ∀ clock e, decode clock data ≠ .error e

/-- The clock has no influence on what is read. -/
theorem decode_ok_iff {data : Bytes} {header : Header} (hheader : decodeHeader data = .ok header)
    (clock : ℕ → TimePointNs) : (∃ r, decode clock data = .ok r) ↔
      ∃ pos, QuestionsAt data header.qdcount.toNat HEADER_SIZE pos ∧
        AnswersAt data header.ancount.toNat pos := by
  simp only [decode, hheader, ok_bind]
  constructor
  · rintro ⟨r, h⟩
    obtain ⟨⟨reply, pos⟩, hquestions, h⟩ := bind_eq_ok_iff.mp h
    obtain ⟨⟨reply', pos'⟩, hanswers, -⟩ := bind_eq_ok_iff.mp h
    exact ⟨pos, (decodeQuestions_ok_iff _).mp ⟨reply, hquestions⟩,
      (decodeAnswers_ok_iff _ _ _).mp ⟨_, hanswers⟩⟩
  · rintro ⟨pos, hquestions, hanswers⟩
    obtain ⟨reply, hreply⟩ := (decodeQuestions_ok_iff _).mpr hquestions
    obtain ⟨⟨reply', pos'⟩, hreply'⟩ := (decodeAnswers_ok_iff _ _ _).mpr hanswers
    exact ⟨reply', bind_eq_ok_iff.mpr ⟨_, hreply, bind_eq_ok_iff.mpr ⟨_, hreply', rfl⟩⟩⟩

/-- **Bounds of `decode`**: every read stays inside the datagram exactly when the datagram is
shorter than a header or holds the questions and answers its header announces. -/
theorem decode_readsInBounds_iff_covered (data : Bytes) :
    ReadsInBounds data ↔ Covered data := by
  obtain ⟨header, hheader, hlong, hshort⟩ := decodeHeader_ok data
  have hbounds : ReadsInBounds data ↔
      ∃ pos, QuestionsAt data header.qdcount.toNat HEADER_SIZE pos ∧
        AnswersAt data header.ancount.toNat pos := by
    simp only [ReadsInBounds, ← exists_ok_iff_forall_ne_error, decode_ok_iff hheader, forall_const]
  rw [hbounds, Covered]
  -- a short datagram has the zero header, so both loops are empty
  by_cases hlen : data.length < HEADER_SIZE
  · obtain ⟨hqd, han⟩ := hshort hlen
    simp only [hlen, true_or, iff_true, hqd, han]
    exact ⟨_, .zero _, .zero _⟩
  · obtain ⟨hqd, han⟩ := hlong (not_lt.mp hlen)
    simp only [hlen, false_or, hqd, han]

/-- A bare header that announces one question is read beyond its end. -/
theorem decode_reads_past_bare_header :
    ¬ ∀ data : Bytes, ReadsInBounds data := by
  intro h
  have herror : decode (fun _ => 0) [0, 7, 1, 0, 0, 1, 0, 0, 0, 0, 0, 0] = .error ⟨12, 12⟩ := by
    decide +kernel
  exact h _ _ _ herror

end Epoller.Query
