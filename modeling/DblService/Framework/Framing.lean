import Mathlib.Data.List.Basic

/-!
# Messages on a stream

Messages that are written to a stream arrive as chunks.  A reader answers one chunk after the
other until it halts, and takes each for a message.  It serves the messages as if each came in
a chunk of its own exactly when every chunk brings its message to the end of the body, so that
only padding is left for the chunk after it.
-/

namespace DblService.Framework

variable {α γ σ ω : Type}

/-- Each message is sent after an answer to the one before: before the answer to chunk `k`
nothing of the messages after the `k`th has been sent. -/
structure Delivers (limit : Nat) (messages chunks : List (List α)) : Prop where
  messages_ne : ∀ m ∈ messages, m ≠ []
  chunks_ne : ∀ c ∈ chunks, c ≠ []
  chunks_le : ∀ c ∈ chunks, c.length ≤ limit
  bytes : chunks.flatten = messages.flatten
  causal : ∀ k, (chunks.take k).flatten.length ≤ (messages.take k).flatten.length

/-- A message is a body between padding. -/
structure Message (α : Type) where
  before : List α
  body : List α
  after : List α

def Message.text (m : Message α) : List α := m.before ++ m.body ++ m.after

/-- The reader skips padding, reads the body whatever follows it, and reads something else as
long as the body is not complete. -/
structure Message.Readable (blank : α → Prop) (read : List α → γ) (m : Message α) : Prop where
  before_blank : ∀ x ∈ m.before, blank x
  after_blank : ∀ x ∈ m.after, blank x
  body_ne : m.body ≠ []
  whole : ∀ pad rest, (∀ x ∈ pad, blank x) → read (pad ++ m.body ++ rest) = read m.body
  part : ∀ pad front, (∀ x ∈ pad, blank x) → front <+: m.body → front ≠ m.body →
    read (pad ++ front) ≠ read m.body

namespace Message.Readable

variable {blank : α → Prop} {read : List α → γ} {m : Message α}

theorem read_text (h : m.Readable blank read) : read m.text = read m.body :=
  h.whole m.before m.after h.before_blank

private theorem read_short (h : m.Readable blank read) {pad c tail : List α}
    (hpad : ∀ x ∈ pad, blank x) (hsplit : pad ++ m.text = c ++ tail)
    (hshort : c.length < (pad ++ m.before ++ m.body).length) : read c ≠ read m.text := by
  rw [h.read_text]
  have hblank : ∀ x ∈ pad ++ m.before, blank x := by
    intro x hx
    rcases List.mem_append.mp hx with hx | hx
    · exact hpad x hx
    · exact h.before_blank x hx
  have hbytes : (pad ++ m.before) ++ m.body <+: pad ++ m.text := ⟨m.after, by simp [text]⟩
  have hprefix : c <+: (pad ++ m.before) ++ m.body :=
    List.prefix_of_prefix_length_le ⟨tail, hsplit.symm⟩ hbytes (Nat.le_of_lt hshort)
  obtain ⟨rest, hrest⟩ := hprefix
  rcases List.append_eq_append_iff.mp hrest with ⟨pad', hc, _⟩ | ⟨front, rfl, hbody⟩
  · have hall : ∀ x ∈ c, blank x := fun x hx =>
      hblank x (hc ▸ List.mem_append_left _ hx)
    have hpart := h.part c [] hall List.nil_prefix h.body_ne.symm
    rwa [List.append_nil] at hpart
  · apply h.part _ front hblank ⟨rest, hbody.symm⟩
    rintro rfl
    exact absurd hshort (Nat.lt_irrefl _)

end Message.Readable

section
variable (arrive : Nat → σ → σ) (halted : σ → Bool) (step : Nat → List α → σ → ω × σ)

/-- The answers to the chunks from the `k`th on, until the reader has halted when a chunk
arrives. -/
def transcript : Nat → List (List α) → σ → List ω
  | _, [], _ => []
  | k, c :: cs, s =>
    let s' := arrive k s
    if halted s' then []
    else
      let x := step k c s'
      x.1 :: transcript (k + 1) cs x.2

/-- As long as the reader runs, each chunk brings the padding that was left and its message to
the end of the body; and when the reader still runs after the last message, no chunk is left. -/
def Framed : Nat → List α → List (Message α) → List (List α) → σ → Prop
  | k, _, [], chunks, s => halted (arrive k s) = true ∨ chunks = []
  | k, pad, m :: ms, chunks, s =>
    halted (arrive k s) = true ∨ ∃ front pad' cs,
      chunks = (pad ++ m.before ++ m.body ++ front) :: cs ∧ m.after = front ++ pad' ∧
        Framed (k + 1) pad' ms cs (step k m.text (arrive k s)).2

variable {arrive halted step}

private theorem transcript_halted {k : Nat} {s : σ} (h : halted (arrive k s) = true)
    (chunks : List (List α)) : transcript arrive halted step k chunks s = [] := by
  cases chunks with
  | nil => rfl
  | cons c cs => simp [transcript, h]

private theorem transcript_running {k : Nat} {s : σ} (h : halted (arrive k s) = false) (c : List α)
    (cs : List (List α)) : transcript arrive halted step k (c :: cs) s =
      (step k c (arrive k s)).1 ::
        transcript arrive halted step (k + 1) cs (step k c (arrive k s)).2 := by
  simp [transcript, h]

/-- A body longer than the chunks never comes whole. -/
theorem not_framed_of_long {k limit : Nat} {s : σ} (h : halted (arrive k s) = false)
    {pad : List α} {m : Message α} (hlong : limit < m.body.length) {ms : List (Message α)}
    {chunks : List (List α)} (hchunks : ∀ c ∈ chunks, c.length ≤ limit) :
    ¬ Framed arrive halted step k pad (m :: ms) chunks s := by
  rintro (hhalted | ⟨front, pad', cs, rfl, _⟩)
  · rw [h] at hhalted
    cases hhalted
  · have hle := hchunks _ List.mem_cons_self
    simp only [List.length_append] at hle
    omega

private theorem first_chunk {pad c : List α} {cs : List (List α)} {m : Message α}
    {ms : List (Message α)}
    (hbytes : (c :: cs).flatten = pad ++ ((m :: ms).map Message.text).flatten)
    (hlength : c.length ≤ pad.length + m.text.length) :
    ∃ tail, pad ++ m.text = c ++ tail ∧ cs.flatten = tail ++ (ms.map Message.text).flatten := by
  rw [List.flatten_cons, List.map_cons, List.flatten_cons, ← List.append_assoc] at hbytes
  rcases List.append_eq_append_iff.mp hbytes with ⟨tail, htext, hrest⟩ | ⟨extra, hc, hrest⟩
  · exact ⟨tail, htext, hrest⟩
  · have hnone : extra = [] := by
      apply List.eq_nil_of_length_eq_zero
      rw [hc, List.length_append, List.length_append] at hlength
      omega
    subst hnone
    exact ⟨[], by rw [hc, List.append_nil, List.append_nil], by rw [hrest]; rfl⟩

private theorem chunk_of_reach {pad c tail : List α} {m : Message α}
    (hsplit : pad ++ m.text = c ++ tail)
    (hreach : (pad ++ m.before ++ m.body).length ≤ c.length) :
    ∃ front, c = pad ++ m.before ++ m.body ++ front ∧ m.after = front ++ tail := by
  have hfront : pad ++ m.before ++ m.body ++ m.after = c ++ tail := by
    rw [← hsplit]
    simp [Message.text]
  rcases List.append_eq_append_iff.mp hfront with ⟨front, hc, hafter⟩ | ⟨extra, hc, htail⟩
  · exact ⟨front, hc, hafter⟩
  · have hnone : extra = [] := by
      apply List.eq_nil_of_length_eq_zero
      rw [hc, List.length_append] at hreach
      omega
    subst hnone
    exact ⟨[], by rw [hc, List.append_nil, List.append_nil], by rw [htail]; rfl⟩

/-- A reader whose answer and next state are decided by what it reads in a chunk, and whose
answer tells what that was, answers a stream as it would have answered the messages exactly when
the chunks frame them. -/
theorem transcript_eq_iff {blank : α → Prop} {read : List α → γ} {I : σ → Prop}
    (harrive : ∀ k s, I s → I (arrive k s)) (hstep : ∀ k c s, I s → I (step k c s).2)
    (hsame : ∀ k a b s, I s → read a = read b → step k a s = step k b s)
    (htell : ∀ k a b s, I s → (step k a s).1 = (step k b s).1 → read a = read b)
    {messages : List (Message α)} (hmessages : ∀ m ∈ messages, m.Readable blank read)
    {pad : List α} (hpad : ∀ x ∈ pad, blank x) {chunks : List (List α)}
    (hbytes : chunks.flatten = pad ++ (messages.map Message.text).flatten)
    (hcausal : ∀ k, (chunks.take k).flatten.length ≤
      pad.length + ((messages.map Message.text).take k).flatten.length)
    {k : Nat} {s : σ} (hs : I s) :
    transcript arrive halted step k chunks s =
        transcript arrive halted step k (messages.map Message.text) s ↔
      Framed arrive halted step k pad messages chunks s := by
  induction messages generalizing pad chunks k s with
  | nil =>
    cases hhalted : halted (arrive k s) with
    | true => simp [transcript_halted hhalted, Framed, hhalted]
    | false =>
      cases chunks with
      | nil => simp [transcript, Framed]
      | cons c cs => simp [transcript, Framed, hhalted]
  | cons m ms ih =>
    obtain ⟨hm, hms⟩ := List.forall_mem_cons.mp hmessages
    cases hhalted : halted (arrive k s) with
    | true => simp [transcript_halted hhalted, Framed, hhalted]
    | false =>
    cases chunks with
    | nil => simp [transcript, Framed, hhalted]
    | cons c cs =>
    have hlength : c.length ≤ pad.length + m.text.length := by simpa using hcausal 1
    obtain ⟨tail, hsplit, hrest⟩ := first_chunk hbytes hlength
    have harrived := harrive k s hs
    rw [List.map_cons, transcript_running hhalted, transcript_running hhalted, List.cons.injEq]
    by_cases hreach : (pad ++ m.before ++ m.body).length ≤ c.length
    · -- the chunk reaches the end of the body
      obtain ⟨front, rfl, hafter⟩ := chunk_of_reach hsplit hreach
      have hblank : ∀ x ∈ pad ++ m.before, blank x :=
        List.forall_mem_append.mpr ⟨hpad, hm.before_blank⟩
      have hread : read (pad ++ m.before ++ m.body ++ front) = read m.text :=
        (hm.whole _ front hblank).trans hm.read_text.symm
      have htail : ∀ x ∈ tail, blank x := fun x hx =>
        hm.after_blank x (hafter ▸ List.mem_append_right _ hx)
      have hcausal' (j : Nat) : (cs.take j).flatten.length ≤
          tail.length + ((ms.map Message.text).take j).flatten.length := by
        have h := hcausal (j + 1)
        have hlengths := congrArg List.length hsplit
        simp only [List.take_succ_cons, List.map_cons, List.flatten_cons,
          List.length_append] at h hlengths
        omega
      rw [hsame k _ _ _ harrived hread,
        ih hms htail hrest hcausal' (hstep k _ _ harrived)]
      simp only [Framed, hhalted, Bool.false_eq_true, false_or, true_and, List.cons.injEq]
      constructor
      · exact fun h => ⟨front, tail, cs, ⟨rfl, rfl⟩, hafter, h⟩
      · rintro ⟨front', tail', cs', ⟨hc, rfl⟩, hafter', h⟩
        obtain rfl := List.append_cancel_left hc
        rw [hafter] at hafter'
        obtain rfl := List.append_cancel_left hafter'
        exact h
    · -- it ends before the body does
      have hread := hm.read_short hpad hsplit (by omega)
      simp only [Framed, hhalted, Bool.false_eq_true, false_or]
      refine iff_of_false (fun h => hread (htell k _ _ _ harrived h.1)) ?_
      rintro ⟨front, tail', cs', hc, _⟩
      rw [List.cons.injEq] at hc
      apply hreach
      rw [hc.1]
      simp

end

end DblService.Framework
