import DblService.Client.Session

/-!
# Reading an answer

`ServiceConnection::read` of the client waits in `run_one` for the completion of its read,
while `check_deadline` can close the socket, and takes the line out of the stream buffer.
-/

namespace DblService.Dblclient.Net

/-- The error codes that `read` tells apart, and all others. -/
inductive ErrorCode
  | success
  | wouldBlock
  | eof
  | connectionReset
  | operationAborted
  | other (value : Int)
  deriving DecidableEq, Repr

/-- The contents of a stream buffer, which are shorter than the largest `ptrdiff_t`. -/
structure StreamBuffer where
  data : List Char
  bounded : data.length < 2 ^ 63

/-- The socket and the deadline, where `none` is `pos_infin`. -/
structure ServiceConnection where
  isOpen : Bool := true
  expiresAt : Option Int := none
  deriving DecidableEq, Repr

/-- What `run_one` can run: the wait on the deadline at a time, or the completion of the read. -/
inductive Ready
  | checkDeadline (now : Int)
  | completed (error : ErrorCode) (length : UInt64)
  deriving DecidableEq, Repr

/-- How `read` ends: with a result, with a `DBLClientError`, or with iterators that are no range
of the buffer. -/
inductive Ending
  | returned (result : List Char)
  | raised (what : String)
  | undefined
  deriving DecidableEq, Repr

def eofMarker : List Char := ['\r', '\n']

namespace ServiceConnection

def checkDeadline (now : Int) (conn : ServiceConnection) : ServiceConnection :=
  match conn.expiresAt with
  | some expiresAt => if expiresAt ≤ now then { isOpen := false, expiresAt := none } else conn
  | none => conn

/-- The variables `ec` and `length` that the completion assigns. -/
structure Reading where
  ec : ErrorCode := .wouldBlock
  length : UInt64 := 0
  deriving DecidableEq, Repr

def onRead (error : ErrorCode) (len : UInt64) : Except String Reading :=
  if error = .eof ∨ error = .connectionReset then .error "Read failed (connection closed)"
  else .ok { ec := error, length := len }

def runOne (conn : ServiceConnection) (reading : Reading) :
    Ready → ServiceConnection × Except String Reading
  | .checkDeadline now => (conn.checkDeadline now, .ok reading)
  | .completed error length => (conn, onRead error length)

/-- The loop until `ec` is no longer `would_block`; `none` when it still waits. -/
def waitRead (conn : ServiceConnection) (reading : Reading) :
    List Ready → ServiceConnection × Option (Except String Reading)
  | [] => (conn, none)
  | ready :: rest =>
    match conn.runOne reading ready with
    | (conn, .error what) => (conn, some (.error what))
    | (conn, .ok reading) =>
      if reading.ec = .wouldBlock then waitRead conn reading rest
      else (conn, some (.ok reading))

def distance (length : UInt64) : Int :=
  (length - UInt64.ofNat eofMarker.length).toInt64.toInt

def takeLine (buffer : StreamBuffer) (length : UInt64) : Ending :=
  if 0 ≤ distance length ∧ distance length ≤ buffer.data.length then
    .returned (buffer.data.take (distance length).toNat)
  else .undefined

def startRead (conn : ServiceConnection) (now timeout : Int) : ServiceConnection :=
  { conn with expiresAt := some (now + timeout) }

/-- What follows the loop. -/
def finish (buffer : StreamBuffer) : Except String Reading → Ending
  | .error what => .raised what
  | .ok reading => takeLine buffer reading.length

def read (conn : ServiceConnection) (now timeout : Int) (ready : List Ready)
    (buffer : StreamBuffer) : ServiceConnection × Option Ending :=
  let waited := (conn.startRead now timeout).waitRead {} ready
  (waited.1, waited.2.map (finish buffer))

end ServiceConnection

/-! ## The first line -/

/-- The line that the first end marker ends. -/
def FirstLine (data line : List Char) : Prop :=
  (∃ rest, data = line ++ eofMarker ++ rest) ∧
    ∀ before after, data = before ++ eofMarker ++ after → line.length ≤ before.length

/-- What the completion of `async_read_until` reports about the buffer. -/
def Reported (error : ErrorCode) (length : UInt64) (buffer : StreamBuffer) : Prop :=
  if error = .success then
    ∃ line, FirstLine buffer.data line ∧ length.toNat = line.length + eofMarker.length
  else length = 0

private theorem FirstLine.untilEof_eq {data line : List Char} (h : FirstLine data line) :
    untilEof data = line := by
  obtain ⟨⟨rest, rfl⟩, hfirst⟩ := h
  induction line with
  | nil => rfl
  | cons c line ih =>
    have hline := ih fun before after heq =>
      Nat.le_of_succ_le_succ (hfirst (c :: before) after (congrArg (c :: ·) heq))
    change untilEof (c :: (line ++ eofMarker ++ rest)) = c :: line
    rw [untilEof, hline]
    intro after hc hafter
    have hlong := hfirst [] after (by rw [hc, List.cons_append, List.cons_append, hafter]; rfl)
    simp at hlong

private theorem FirstLine.length_lt {buffer : StreamBuffer} {line : List Char}
    (h : FirstLine buffer.data line) :
    line.length + eofMarker.length ≤ buffer.data.length ∧ line.length < 2 ^ 63 := by
  obtain ⟨⟨rest, hdata⟩, -⟩ := h
  have hlength := congrArg List.length hdata
  rw [List.length_append, List.length_append] at hlength
  have hbounded := buffer.bounded
  omega

theorem FirstLine.take {data line : List Char} (h : FirstLine data line) :
    data.take line.length = line := by
  obtain ⟨⟨rest, rfl⟩, -⟩ := h
  rw [List.append_assoc, List.take_left]

namespace ServiceConnection

private theorem distance_line {length : UInt64} {n : Nat} (h : length.toNat = n + eofMarker.length)
    (hn : n < 2 ^ 63) : distance length = n := by
  have hle : UInt64.ofNat eofMarker.length ≤ length := by
    rw [UInt64.le_iff_toNat_le, h]
    exact Nat.le_add_left _ _
  have hsub : (length - UInt64.ofNat eofMarker.length).toNat = n := by
    rw [UInt64.toNat_sub_of_le _ _ hle, h]
    exact Nat.add_sub_cancel _ _
  rw [distance, ← Int64.toInt_toBitVec, UInt64.toBitVec_toInt64,
    BitVec.toInt_eq_toNat_of_lt (by rw [UInt64.toNat_toBitVec, hsub]; omega),
    UInt64.toNat_toBitVec, hsub]

private theorem takeLine_zero (buffer : StreamBuffer) : takeLine buffer 0 = .undefined := by
  have hneg : ¬ 0 ≤ distance 0 := by decide
  rw [takeLine, if_neg fun h => hneg h.1]

private theorem takeLine_line {buffer : StreamBuffer} {line : List Char} {length : UInt64}
    (hline : FirstLine buffer.data line) (h : length.toNat = line.length + eofMarker.length) :
    takeLine buffer length = .returned line := by
  obtain ⟨hle, hlt⟩ := hline.length_lt
  rw [takeLine, distance_line h hlt, if_pos (by omega), Int.toNat_natCast, hline.take]

private theorem waitRead_completed (times : List Int) {error : ErrorCode}
    (hblock : error ≠ .wouldBlock) (length : UInt64) (rest : List Ready) (conn : ServiceConnection)
    :
    (conn.waitRead {} (times.map .checkDeadline ++ .completed error length :: rest)).2 =
      some (onRead error length) := by
  induction times generalizing conn with
  | nil =>
    rw [List.map_nil, List.nil_append, waitRead, runOne, onRead]
    split_ifs with hclosed
    · rfl
    · exact congrArg Prod.snd (if_neg hblock)
  | cons now times ih =>
    rw [List.map_cons, List.cons_append, waitRead, runOne]
    exact ih (conn.checkDeadline now)

/-- The read ends with an error or with the first line, and the end marker is only taken off a
length that is not less. -/
structure Sound (conn : ServiceConnection) (now timeout : Int) (ready : List Ready)
    (buffer : StreamBuffer) : Prop where
  ends : ∃ ending, (conn.read now timeout ready buffer).2 = some ending ∧
    ((∃ what, ending = .raised what) ∨
      ∃ line, FirstLine buffer.data line ∧ ending = .returned line)
  marked : ∀ reading, ((conn.startRead now timeout).waitRead {} ready).2 = some (.ok reading) →
    eofMarker.length ≤ reading.length.toNat

/-- The read is sound exactly for the errors that its handler throws, and without an error. -/
theorem read_sound_iff (conn : ServiceConnection) (now timeout : Int) (times : List Int)
    (error : ErrorCode) (length : UInt64) (rest : List Ready) (buffer : StreamBuffer)
    (hblock : error ≠ .wouldBlock) (hreported : Reported error length buffer) :
    Sound conn now timeout (times.map .checkDeadline ++ .completed error length :: rest) buffer ↔
      error = .success ∨ error = .eof ∨ error = .connectionReset := by
  have hwait := (conn.startRead now timeout).waitRead_completed times hblock length rest
  have hread := congrArg (Option.map (finish buffer)) hwait
  by_cases hclosed : error = .eof ∨ error = .connectionReset
  · -- the handler throws
    have hthrown : onRead error length = .error "Read failed (connection closed)" := if_pos hclosed
    rw [hthrown] at hwait hread
    refine iff_of_true ⟨⟨_, hread, .inl ⟨_, rfl⟩⟩, ?_⟩ (.inr hclosed)
    intro reading hreading
    rw [hwait] at hreading
    cases hreading
  · have hpassed : onRead error length = .ok { ec := error, length } := if_neg hclosed
    rw [hpassed] at hwait hread
    by_cases hsuccess : error = .success
    · -- the line is taken out of the buffer
      rw [Reported, if_pos hsuccess] at hreported
      obtain ⟨line, hline, hlength⟩ := hreported
      refine iff_of_true ⟨⟨_, hread, .inr ⟨line, hline, takeLine_line hline hlength⟩⟩, ?_⟩
        (.inl hsuccess)
      intro reading hreading
      rw [hwait] at hreading
      cases hreading
      rw [hlength]
      exact Nat.le_add_left _ _
    · -- the loop ends with the error, which nobody looks at again
      rw [Reported, if_neg hsuccess] at hreported
      refine iff_of_false ?_ (not_or.2 ⟨hsuccess, hclosed⟩)
      intro hsound
      have hlength := hsound.marked _ hwait
      rw [hreported] at hlength
      exact absurd hlength (by decide : ¬ eofMarker.length ≤ (0 : UInt64).toNat)

/-- Without an error the result is the text that a session parses as the answer. -/
theorem read_untilEof (conn : ServiceConnection) (now timeout : Int) (times : List Int)
    (length : UInt64) (rest : List Ready) (buffer : StreamBuffer)
    (hreported : Reported .success length buffer) :
    (conn.read now timeout (times.map .checkDeadline ++ .completed .success length :: rest)
      buffer).2 = some (.returned (untilEof buffer.data)) := by
  have hwait := (conn.startRead now timeout).waitRead_completed times
    (by decide : ErrorCode.success ≠ .wouldBlock) length rest
  rw [Reported, if_pos rfl] at hreported
  obtain ⟨line, hline, hlength⟩ := hreported
  have hread := congrArg (Option.map (finish buffer)) hwait
  rw [hline.untilEof_eq, ← takeLine_line hline hlength]
  exact hread

def answeredBuffer : StreamBuffer := ⟨"ok\r\n".toList, by decide⟩

theorem read_sound_answered :
    Sound {} 0 5 ([3].map .checkDeadline ++ .completed .success 4 :: []) answeredBuffer := by
  have hline : FirstLine answeredBuffer.data "ok".toList := by
    refine ⟨⟨[], by decide⟩, ?_⟩
    intro before after heq
    by_contra hshort
    rcases before with _ | ⟨c, _ | ⟨d, before⟩⟩
    · cases heq
    · cases heq
    · exact hshort (Nat.le_add_left _ _)
  have hreported : Reported .success 4 answeredBuffer := ⟨"ok".toList, hline, by decide⟩
  exact (read_sound_iff {} 0 5 [3] .success 4 [] answeredBuffer (by decide) hreported).mpr
    (.inl rfl)

/-- A deadline that expires closes the socket, and the aborted read is taken for a line. -/
theorem read_aborted :
    ((({} : ServiceConnection).startRead 0 5).checkDeadline 5).isOpen = false ∧
      ¬ ∀ (conn : ServiceConnection) (now timeout : Int) (times : List Int) (error : ErrorCode)
        (length : UInt64) (rest : List Ready) (buffer : StreamBuffer), error ≠ .wouldBlock →
        Reported error length buffer →
        Sound conn now timeout (times.map .checkDeadline ++ .completed error length :: rest)
          buffer := by
  refine ⟨rfl, ?_⟩
  intro h
  obtain ⟨ending, hread, hends⟩ :=
    (h {} 0 5 [5] .operationAborted 0 [] answeredBuffer (by decide) rfl).ends
  have hundefined : some Ending.undefined = some ending :=
    (congrArg some (takeLine_zero answeredBuffer)).symm.trans hread
  cases hundefined
  rcases hends with ⟨what, hraised⟩ | ⟨line, -, hreturned⟩
  · cases hraised
  · cases hreturned

end ServiceConnection

end DblService.Dblclient.Net
