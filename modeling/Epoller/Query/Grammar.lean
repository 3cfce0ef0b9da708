import Epoller.Query.Decode

/-!
# What the Decoder Reads

A grammar of the bytes each helper of `decode` consumes. A helper succeeds
exactly when a word of its grammar stands at the cursor, and leaves the cursor
behind that word.

## Contents

- `NameTail`: what follows the first length byte of a name
- `decodeName_eq_ok_iff`, `decodeAnswer_eq_ok_iff`: the helpers
- `FooterBytes`, `AnswerBytes`: the fixed parts behind a name
-/

namespace Epoller.Query

open Foundation

/-! ## Names -/

/-- `NameTail len w text`: after a length byte `len` the bytes `w` end a name, and the characters
that `decodeName` collects from them are `text`. -/
inductive NameTail : ℕ → Bytes → Bytes → Prop where
  /-- A zero byte ends the name, whatever length is still running. -/
  | zero (len : ℕ) : NameTail len [0] []
  /-- After a length byte with both pointer bits the next byte ends the name. -/
  | pointer {len : ℕ} {b : UInt8} : b ≠ 0 → isPointer len → NameTail len [b] []
  /-- A byte behind a finished label is the next length byte. -/
  | label {b : UInt8} {w text : Bytes} :
      b ≠ 0 → NameTail b.toNat w text → NameTail 0 (b :: w) (0x2e :: text)
  /-- A byte inside a label is a character. -/
  | char {len : ℕ} {b : UInt8} {w text : Bytes} :
      b ≠ 0 → ¬ isPointer len → len ≠ 0 →
      NameTail (len - 1) w text → NameTail len (b :: w) (b :: text)

theorem not_isPointer_zero : ¬ isPointer 0 := by decide

/-- One round of the loop of `decodeName`. -/
theorem decodeNameLoop_of_read {response name : Bytes} {len curPos : ℕ} {b : UInt8}
    (h : readAt response curPos = .ok b) :
    decodeNameLoop response name len curPos =
      if b = 0 then .ok (name, curPos + 1)
      else if isPointer len then .ok (name, curPos + 1)
      else if len = 0 then decodeNameLoop response (name ++ [0x2e]) b.toNat (curPos + 1)
      else decodeNameLoop response (name ++ [b]) (len - 1) (curPos + 1) := by
  rw [decodeNameLoop]
  split
  · rename_i e he
    rw [h] at he
    cases he
  · rename_i b' hb'
    rw [h] at hb'
    cases hb'
    rfl

/-- The loop reads a tail that stands at the cursor to its end. -/
theorem NameTail.decodeNameLoop_eq {response : Bytes} {len : ℕ} {w text : Bytes}
    (h : NameTail len w text) :
    ∀ {name : Bytes} {curPos : ℕ}, StandsAt response curPos w →
      decodeNameLoop response name len curPos = .ok (name ++ text, curPos + w.length) := by
  -- each constructor of the tail is one round of the loop
  induction h with
  | zero len =>
    intro name curPos hw
    rw [decodeNameLoop_of_read hw.readAt_eq, if_pos rfl]
    simp
  | pointer hb hlen =>
    intro name curPos hw
    rw [decodeNameLoop_of_read hw.readAt_eq, if_neg hb, if_pos hlen]
    simp
  | label hb _ ih =>
    intro name curPos hw
    rw [decodeNameLoop_of_read hw.readAt_eq, if_neg hb, if_neg not_isPointer_zero, if_pos rfl,
      ih (standsAt_cons.mp hw).2]
    simp only [List.append_assoc, List.singleton_append, List.length_cons]
    congr 2
    omega
  | char hb hptr hlen _ ih =>
    intro name curPos hw
    rw [decodeNameLoop_of_read hw.readAt_eq, if_neg hb, if_neg hptr, if_neg hlen,
      ih (standsAt_cons.mp hw).2]
    simp only [List.append_assoc, List.singleton_append, List.length_cons]
    congr 2
    omega

/-- Where the loop succeeds, a tail stands at the cursor. -/
theorem nameTail_of_decodeNameLoop {response : Bytes} {name : Bytes} {len curPos : ℕ}
    {name' : Bytes} {pos : ℕ} (h : decodeNameLoop response name len curPos = .ok (name', pos)) :
    ∃ w text, NameTail len w text ∧ StandsAt response curPos w := by
  -- the recursion of the loop: the bytes that are left get fewer
  induction hn : response.length - curPos using Nat.strong_induction_on
    generalizing name len curPos with
  | _ n ih =>
    cases hread : readAt response curPos with
    | error e =>
      rw [decodeNameLoop] at h
      split at h
      · cases h
      · rename_i b hb
        rw [hread] at hb
        cases hb
    | ok b =>
      have hget := readAt_eq_ok_iff.mp hread
      have hlt := (List.getElem?_eq_some_iff.mp hget).1
      have hone : StandsAt response curPos [b] := standsAt_cons.mpr ⟨hget, standsAt_nil ..⟩
      rw [decodeNameLoop_of_read hread] at h
      split at h
      -- a zero byte ends the name, also inside a label
      · rename_i hb
        subst hb
        exact ⟨_, _, .zero len, hone⟩
      · rename_i hb
        split at h
        · rename_i hptr
          exact ⟨_, _, .pointer hb hptr, hone⟩
        · rename_i hptr
          split at h
          · rename_i hlen
            subst hlen
            obtain ⟨w, text, htail, hw⟩ := ih _ (by omega) h rfl
            exact ⟨_, _, .label hb htail, standsAt_cons.mpr ⟨hget, hw⟩⟩
          · rename_i hlen
            obtain ⟨w, text, htail, hw⟩ := ih _ (by omega) h rfl
            exact ⟨_, _, .char hb hptr hlen htail, standsAt_cons.mpr ⟨hget, hw⟩⟩

/-- **Specification of `decodeName`**: it succeeds where a length byte and a tail stand at the
cursor, returns the text of the tail, and moves the cursor behind it. -/
theorem decodeName_eq_ok_iff {response : Bytes} {curPos pos : ℕ} {name : Bytes} :
    decodeName response curPos = .ok (name, pos) ↔
      ∃ l w, NameTail l.toNat w name ∧ StandsAt response curPos (l :: w) ∧
        pos = curPos + (l :: w).length := by
  unfold decodeName
  constructor
  · intro h
    obtain ⟨l, hl, hloop⟩ := bind_eq_ok_iff.mp h
    obtain ⟨w, text, htail, hw⟩ := nameTail_of_decodeNameLoop hloop
    rw [htail.decodeNameLoop_eq hw] at hloop
    simp only [List.nil_append, Except.ok.injEq, Prod.mk.injEq] at hloop
    obtain ⟨rfl, rfl⟩ := hloop
    refine ⟨l, w, htail, standsAt_cons.mpr ⟨readAt_eq_ok_iff.mp hl, hw⟩, ?_⟩
    rw [List.length_cons]
    omega
  · rintro ⟨l, w, htail, hw, rfl⟩
    rw [hw.readAt_eq, ok_bind, htail.decodeNameLoop_eq (standsAt_cons.mp hw).2]
    simp only [List.nil_append, List.length_cons]
    congr 2
    omega

/-! ## Fixed Parts -/

theorem readWord_eq_ok_iff {data : Bytes} {i : ℕ} {word : UInt16} :
    readWord data i = .ok word ↔
      ∃ d0 d1, data[i]? = some d0 ∧ data[i + 1]? = some d1 ∧ networkEndian16 d0 d1 = word := by
  simp [readWord, bind_eq_ok_iff, readAt_eq_ok_iff]

/-- The four bytes behind the name of a question. -/
structure FooterBytes where
  (q0 q1 c0 c1 : UInt8)

def FooterBytes.word (f : FooterBytes) : Bytes := [f.q0, f.q1, f.c0, f.c1]

def FooterBytes.footer (f : FooterBytes) : Footer :=
  ⟨networkEndian16 f.q0 f.q1, networkEndian16 f.c0 f.c1⟩

@[simp] theorem FooterBytes.length_word (f : FooterBytes) : f.word.length = 4 := rfl

/-- The ten bytes behind the name of an answer. -/
structure AnswerBytes where
  (q0 q1 c0 c1 t0 t1 t2 t3 r0 r1 : UInt8)

def AnswerBytes.word (f : AnswerBytes) : Bytes :=
  [f.q0, f.q1, f.c0, f.c1, f.t0, f.t1, f.t2, f.t3, f.r0, f.r1]

def AnswerBytes.answer (f : AnswerBytes) : Answer :=
  ⟨networkEndian16 f.q0 f.q1, networkEndian16 f.c0 f.c1,
    networkEndian32 f.t0 f.t1 f.t2 f.t3, networkEndian16 f.r0 f.r1⟩

@[simp] theorem AnswerBytes.length_word (f : AnswerBytes) : f.word.length = 10 := rfl

/-- **Specification of `decodeFooter`** -/
theorem decodeFooter_eq_ok_iff {response : Bytes} {curPos pos : ℕ} {footer : Footer} :
    decodeFooter response curPos = .ok (footer, pos) ↔
      ∃ f : FooterBytes, StandsAt response curPos f.word ∧ footer = f.footer ∧
        pos = curPos + 4 := by
  simp only [decodeFooter, bind_eq_ok_iff, readWord_eq_ok_iff, Except.ok.injEq, Prod.mk.injEq]
  constructor
  · rintro ⟨_, ⟨q0, q1, hq0, hq1, rfl⟩, _, ⟨c0, c1, hc0, hc1, rfl⟩, rfl, rfl⟩
    exact ⟨⟨q0, q1, c0, c1⟩, by simp [FooterBytes.word, standsAt_cons, *], rfl, rfl⟩
  · rintro ⟨f, hf, rfl, rfl⟩
    simp only [FooterBytes.word, standsAt_cons, standsAt_nil, and_true] at hf
    obtain ⟨hq0, hq1, hc0, hc1⟩ := hf
    exact ⟨_, ⟨_, _, hq0, hq1, rfl⟩, _, ⟨_, _, hc0, hc1, rfl⟩, rfl, rfl⟩

/-- **Specification of `decodeAnswer`** -/
theorem decodeAnswer_eq_ok_iff {response : Bytes} {curPos pos : ℕ} {answer : Answer} :
    decodeAnswer response curPos = .ok (answer, pos) ↔
      ∃ f : AnswerBytes, StandsAt response curPos f.word ∧ answer = f.answer ∧
        pos = curPos + 10 := by
  simp only [decodeAnswer, bind_eq_ok_iff, readWord_eq_ok_iff, readAt_eq_ok_iff,
    Except.ok.injEq, Prod.mk.injEq]
  constructor
  · rintro ⟨_, ⟨q0, q1, hq0, hq1, rfl⟩, _, ⟨c0, c1, hc0, hc1, rfl⟩, t0, ht0, t1, ht1, t2, ht2,
      t3, ht3, _, ⟨r0, r1, hr0, hr1, rfl⟩, rfl, rfl⟩
    exact ⟨⟨q0, q1, c0, c1, t0, t1, t2, t3, r0, r1⟩, by simp [AnswerBytes.word, standsAt_cons, *],
      rfl, rfl⟩
  · rintro ⟨f, hf, rfl, rfl⟩
    simp only [AnswerBytes.word, standsAt_cons, standsAt_nil, and_true] at hf
    obtain ⟨hq0, hq1, hc0, hc1, ht0, ht1, ht2, ht3, hr0, hr1⟩ := hf
    exact ⟨_, ⟨_, _, hq0, hq1, rfl⟩, _, ⟨_, _, hc0, hc1, rfl⟩, _, ht0, _, ht1, _, ht2, _, ht3,
      _, ⟨_, _, hr0, hr1, rfl⟩, rfl, rfl⟩

end Epoller.Query
