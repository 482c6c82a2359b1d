import DblService.Client.Session
import DblService.Framework.Framing
import DblService.Service.Answers

/-!
# Requests and chunks

`Connection::read` takes whatever one read of the socket returns for a request.  The requests
of a client are executed and answered as if each came whole, exactly when every chunk brings
the request in its place up to its closing brace.  A character stands for a byte.
-/

namespace DblService

open Framework Session Dblclient

namespace ServiceConnection

variable (env : Env) (config : Config)

def refusal (e : Exc) : String :=
  if e.isRuntimeError then env.styled (failure (what env e) (details e)) ++ "\r\n"
  else
    (if config.isDebug then "Processing failed." ++ "\n" ++ what env e else "Processing failed.") ++
      "\r\n"

def understood (chunk : String) : Except String (String × Json) :=
  (parseRequest env chunk).mapError (refusal env config)

variable {env config}

private theorem served_refusal (conn : ServiceConnection) {e : Exc} (he : e.isException = true) :
    served env config conn (answered env conn (.error e)) =
      .ok { text := refusal env config e, conn } := by
  unfold refusal answered
  dsimp only
  cases e.isRuntimeError with
  | true => rfl
  | false =>
    change served env config conn (.error e) = _
    unfold served
    dsimp only
    rw [he]
    rfl

end ServiceConnection

/-- A request as a client writes it: an object with a command, and blanks around it.  The reader
skips the blanks before a value, takes one value whatever follows it, and refuses an object that
is not closed. -/
structure IsRequest (env : Env) (m : Message Char) : Prop where
  before_blank : ∀ c ∈ m.before, isSpace c = true
  after_blank : ∀ c ∈ m.after, isSpace c = true
  object : m.body.head? = some '\x7b'
  whole : ∀ pad rest, (∀ c ∈ pad, isSpace c = true) →
    env.parseJson (String.ofList (pad ++ m.body ++ rest)) = env.parseJson (String.ofList m.body)
  part : ∀ pad front, (∀ c ∈ pad, isSpace c = true) → front <+: m.body → front ≠ m.body →
    env.parseJson (String.ofList (pad ++ front)) = none
  command : ∃ x, ServiceConnection.parseRequest env (String.ofList m.body) = .ok x

namespace IsRequest

variable {env : Env} {m : Message Char}

theorem readable (h : IsRequest env m) (config : Config) :
    m.Readable (fun c => isSpace c = true)
      fun chunk => ServiceConnection.understood env config (String.ofList chunk) := by
  obtain ⟨x, hcommand⟩ := h.command
  refine ⟨h.before_blank, h.after_blank, ?_, ?_, ?_⟩
  · intro hnil
    have hobject := h.object
    rw [hnil] at hobject
    cases hobject
  · intro pad rest hpad
    have hroot : ∃ root, env.parseJson (String.ofList m.body) = some root := by
      rw [← Option.isSome_iff_exists, ← Option.ne_none_iff_isSome]
      intro hnone
      rw [ServiceConnection.parseRequest, hnone] at hcommand
      cases hcommand
    obtain ⟨root, hroot⟩ := hroot
    have hwhole := h.whole pad rest hpad
    simp only [ServiceConnection.understood, ServiceConnection.parseRequest, hwhole, hroot]
  · intro pad front hpad hfront hcut hsame
    have hpart := h.part pad front hpad hfront hcut
    rw [ServiceConnection.understood, ServiceConnection.understood, hcommand,
      ServiceConnection.parseRequest, hpart] at hsame
    cases hsame

end IsRequest

namespace Service

variable (env : Env) (config : Config) (turns : Nat → Turn) (i : Nat)

/-- The command that a chunk of the connection executes, and what is sent for it. -/
def serve (k : Nat) (chunk : List Char) (w : Service) :
    (Option (String × Json) × Option String) × Service :=
  let answered :=
    step env config (.request i (String.ofList chunk) (turns k).status (turns k).ambient) w
  (((ServiceConnection.parseRequest env (String.ofList chunk)).toOption, answered.1), answered.2)

/-- The commands and answers of a connection that reads these chunks, while other connections
are served between them. -/
def serveAll (chunks : List (List Char)) (w : Service) :
    List (Option (String × Json) × Option String) :=
  transcript (fun k => (turns k).arrival env config) Service.stopped (serve env config turns i) 0
    chunks w

/-- As long as the service runs, each chunk brings its request at least to the brace that closes
it; and if the service still runs after the last request, no chunk is left. -/
def BringsEach (requests : List (Message Char)) (chunks : List (List Char)) (w : Service) : Prop :=
  Framed (fun k => (turns k).arrival env config) Service.stopped (serve env config turns i) 0 []
    requests chunks w

variable {env config turns i} {w : Service}

/-- A chunk without a command is refused and changes nothing. -/
theorem step_refusal {conn : ServiceConnection} (hi : w.connections[i]? = some conn)
    {chunk : String} {status : Status} {ambient : Ambient} {e : Exc}
    (hparse : ServiceConnection.parseRequest env chunk = .error e) :
    step env config (.request i chunk status ambient) w =
      (some (ServiceConnection.refusal env config e), w) := by
  have hrun := ServiceConnection.exec_processRequest_error (w.store ambient) env status conn hparse
  have he := ServiceConnection.standard_parseRequest env chunk e hparse
  rw [step_request hi hrun]
  obtain ⟨hlt, hget⟩ := List.getElem?_eq_some_iff.mp hi
  have hsame : w.connections.set i conn = w.connections := by rw [← hget, List.set_getElem_self]
  simp only [ServiceConnection.served_refusal conn he, hsame, Bool.or_false]
  rfl

private theorem serve_congr {conn : ServiceConnection} (hi : w.connections[i]? = some conn)
    {a b : List Char} (h : ServiceConnection.understood env config (String.ofList a) =
      ServiceConnection.understood env config (String.ofList b)) (k : Nat) :
    serve env config turns i k a w = serve env config turns i k b w := by
  unfold ServiceConnection.understood at h
  unfold serve
  cases ha : ServiceConnection.parseRequest env (String.ofList a) with
  | error e =>
    cases hb : ServiceConnection.parseRequest env (String.ofList b) with
    | error e' =>
      rw [ha, hb] at h
      have htext : ServiceConnection.refusal env config e =
        ServiceConnection.refusal env config e' := Except.error.inj h
      rw [step_refusal hi ha, step_refusal hi hb, htext]
      rfl
    | ok x' =>
      rw [ha, hb] at h
      cases h
  | ok x =>
    cases hb : ServiceConnection.parseRequest env (String.ofList b) with
    | error e' =>
      rw [ha, hb] at h
      cases h
    | ok x' =>
      rw [ha, hb] at h
      cases h
      obtain ⟨cmd, data⟩ := x
      have hstep :
          step env config (.request i (String.ofList a) (turns k).status (turns k).ambient) w =
            step env config (.request i (String.ofList b) (turns k).status (turns k).ambient) w := by
        simp only [step, hi, ServiceConnection.exec_read,
          ServiceConnection.exec_processRequest _ env (turns k).status conn ha,
          ServiceConnection.exec_processRequest _ env (turns k).status conn hb]
      rw [hstep]

private theorem understood_of_serve {conn : ServiceConnection} (hi : w.connections[i]? = some conn)
    {a b : List Char} {k : Nat}
    (h : (serve env config turns i k a w).1 = (serve env config turns i k b w).1) :
    ServiceConnection.understood env config (String.ofList a) =
      ServiceConnection.understood env config (String.ofList b) := by
  obtain ⟨hcommand, hanswer⟩ := Prod.mk.inj h
  unfold ServiceConnection.understood
  cases ha : ServiceConnection.parseRequest env (String.ofList a) with
  | error e =>
    cases hb : ServiceConnection.parseRequest env (String.ofList b) with
    | error e' =>
      rw [step_refusal hi ha, step_refusal hi hb] at hanswer
      exact congrArg Except.error (Option.some.inj hanswer)
    | ok x' =>
      rw [ha, hb] at hcommand
      cases hcommand
  | ok x =>
    cases hb : ServiceConnection.parseRequest env (String.ofList b) with
    | error e' =>
      rw [ha, hb] at hcommand
      cases hcommand
    | ok x' =>
      rw [ha, hb] at hcommand
      cases hcommand
      rfl

private theorem transcript_eq_iff_bringsEach {env : Env} {config : Config} {turns : Nat → Turn}
    {w : Service} {i : Nat} {conn : ServiceConnection} (hi : w.connections[i]? = some conn)
    {requests : List (Message Char)} (hrequests : ∀ m ∈ requests, IsRequest env m)
    {chunks : List (List Char)}
    (hdelivers : Delivers MAX_REQUEST_SIZE (requests.map Message.text) chunks) :
    serveAll env config turns i chunks w =
        serveAll env config turns i (requests.map Message.text) w ↔
      BringsEach env config turns i requests chunks w := by
  have harrive (k : Nat) (w : Service) (hw : ∃ conn, w.connections[i]? = some conn) :
      ∃ conn, ((turns k).arrival env config w).connections[i]? = some conn := by
    obtain ⟨conn, hi⟩ := hw
    obtain ⟨conn', hi', _⟩ := run_connection env config (turns k).before hi
    exact ⟨conn', hi'⟩
  have hstep (k : Nat) (c : List Char) (w : Service) (hw : ∃ conn, w.connections[i]? = some conn) :
      ∃ conn, (serve env config turns i k c w).2.connections[i]? = some conn := by
    obtain ⟨conn, hi⟩ := hw
    obtain ⟨conn', hi', _⟩ := step_connection env config
      (.request i (String.ofList c) (turns k).status (turns k).ambient) hi
    exact ⟨conn', hi'⟩
  have hreadable (m : Message Char) (hm : m ∈ requests) : m.Readable (fun c => isSpace c = true)
      fun chunk => ServiceConnection.understood env config (String.ofList chunk) :=
    (hrequests m hm).readable config
  refine transcript_eq_iff harrive hstep ?_ ?_ hreadable (by simp) hdelivers.bytes ?_ ⟨conn, hi⟩
  · intro k a b w hw hread
    obtain ⟨conn, hi⟩ := hw
    exact serve_congr hi hread k
  · intro k a b w hw hanswer
    obtain ⟨conn, hi⟩ := hw
    exact understood_of_serve hi hanswer
  · intro k
    have hcausal := hdelivers.causal k
    simp only [List.length_nil, Nat.zero_add]
    exact hcausal

/-- However the bytes of the requests are cut, the connection executes the same commands and
sends the same answers as for whole requests exactly when every chunk brings its request. -/
theorem serveAll_eq_iff (env : Env) (config : Config) (turns : Nat → Turn) (w : Service) {i : Nat}
    {conn : ServiceConnection} (hi : w.connections[i]? = some conn)
    {requests : List (Message Char)} (hrequests : ∀ m ∈ requests, IsRequest env m)
    {chunks : List (List Char)}
    (hdelivers : Delivers MAX_REQUEST_SIZE (requests.map Message.text) chunks) :
    serveAll env config turns i chunks w =
        serveAll env config turns i (requests.map Message.text) w ↔
      BringsEach env config turns i requests chunks w :=
  transcript_eq_iff_bringsEach hi hrequests hdelivers

/-- A request that is longer than the buffer is never served, however it is cut. -/
theorem serveAll_long (env : Env) (config : Config) (turns : Nat → Turn) (w : Service) {i : Nat}
    {conn : ServiceConnection} (hi : w.connections[i]? = some conn)
    (hruns : ((turns 0).arrival env config w).stopped = false) {m : Message Char}
    (hlong : MAX_REQUEST_SIZE < m.body.length) {requests : List (Message Char)}
    (hrequests : ∀ r ∈ m :: requests, IsRequest env r) {chunks : List (List Char)}
    (hdelivers : Delivers MAX_REQUEST_SIZE ((m :: requests).map Message.text) chunks) :
    serveAll env config turns i chunks w ≠
      serveAll env config turns i ((m :: requests).map Message.text) w := by
  rw [ne_eq, transcript_eq_iff_bringsEach hi hrequests hdelivers]
  exact not_framed_of_long hruns hlong hdelivers.chunks_le

def versionService : Service := { db := ⟨Db.seeded, none⟩, connections := [⟨⟨Uuid.zero⟩, true⟩] }

def messageOf (request : Json) : Message Char := ⟨[], request.body, ['\n']⟩

private theorem isRequest_messageOf {values : List Json} (hvalues : PrefixFree values)
    {request : Json} (hrequest : request ∈ values) (hobject : request.body.head? = some '\x7b')
    (hcommand : ∃ x, ServiceConnection.parseRequest (Env.scanning values)
      (String.ofList request.body) = .ok x) : IsRequest (Env.scanning values) (messageOf request) := by
  have hstart : request.body.head?.any isSpace = false := by
    rw [hobject]
    rfl
  have hne : request.body ≠ [] := by
    intro hnil
    rw [hnil] at hobject
    cases hobject
  have hblank : ∀ c ∈ ([] : List Char), isSpace c = true := by simp
  have hself := Env.scanning_whole hvalues hrequest hstart hne hblank []
  rw [List.nil_append, List.append_nil] at hself
  refine ⟨by simp [messageOf], by simp [messageOf, isSpace], hobject, ?_, ?_, hcommand⟩
  · intro pad rest hpad
    exact (Env.scanning_whole hvalues hrequest hstart hne hpad rest).trans hself.symm
  · intro pad front hpad hfront hcut
    exact Env.scanning_part hvalues hrequest hstart hpad hfront hcut

def listsRequest : Json := .object [("command", .string "get_domain_lists"), ("data", .null)]

/-- Two requests, the line end of the first in the chunk of the second. -/
theorem serveAll_lineEnd :
    let env := Env.scanning [versionRequest, listsRequest]
    let chunks := [versionRequest.body, '\n' :: listsRequest.body ++ ['\n']]
    serveAll env {} (fun _ => {}) 0 chunks versionService =
      serveAll env {} (fun _ => {}) 0 [(messageOf versionRequest).text, (messageOf listsRequest).text]
        versionService := by
  intro env chunks
  have hvalues : PrefixFree [versionRequest, listsRequest] := by decide +kernel
  have hrequests : ∀ m ∈ [messageOf versionRequest, messageOf listsRequest], IsRequest env m := by
    simp only [List.forall_mem_cons, List.not_mem_nil, false_imp_iff, implies_true, and_true]
    exact ⟨isRequest_messageOf hvalues (by simp) (by decide +kernel) ⟨_, rfl⟩,
      isRequest_messageOf hvalues (by simp) (by decide +kernel) ⟨_, rfl⟩⟩
  have hdelivers : Delivers MAX_REQUEST_SIZE
      ([messageOf versionRequest, messageOf listsRequest].map Message.text) chunks := by
    refine ⟨by decide +kernel, by decide +kernel, by decide +kernel, by decide +kernel, ?_⟩
    intro k
    rcases k with _ | _ | k
    · exact le_refl _
    · exact le_of_lt (by decide +kernel)
    · have hbytes : chunks.flatten.length =
          ([messageOf versionRequest, messageOf listsRequest].map Message.text).flatten.length := by
        decide +kernel
      rw [List.take_of_length_le (by simp [chunks]), List.take_of_length_le (by simp)]
      exact hbytes.le
  have hbrings : BringsEach env {} (fun _ => {}) 0 [messageOf versionRequest, messageOf listsRequest]
      chunks versionService :=
    .inr ⟨[], ['\n'], _, rfl, rfl, .inr ⟨['\n'], [], _, rfl, rfl, .inr rfl⟩⟩
  exact (serveAll_eq_iff env {} (fun _ => {}) versionService (i := 0) rfl hrequests hdelivers).mpr
    hbrings

/-- The same request in two chunks is answered twice, and the second time by no JSON. -/
theorem serveAll_cut :
    let env := Env.scanning [versionRequest, .string "command"]
    let request := messageOf versionRequest
    let chunks := [request.text.take 5, request.text.drop 5]
    IsRequest env request ∧ Delivers MAX_REQUEST_SIZE [request.text] chunks ∧
      (serveAll env {} (fun _ => {}) 0 chunks versionService).map Prod.snd =
        [some (env.styled (ServiceConnection.failure "Invalid format"
          ["* Line 2, Column 4\n  Missing '\x7d' or object member name\n"]) ++ "\r\n"),
          some "Processing failed.\r\n"] ∧
      (serveAll env {} (fun _ => {}) 0 [request.text] versionService).map Prod.snd =
        [some (env.styled (ServiceConnection.accepted (.string VERSION)) ++ "\r\n")] ∧
      serveAll env {} (fun _ => {}) 0 chunks versionService ≠
        serveAll env {} (fun _ => {}) 0 [request.text] versionService := by
  intro env request chunks
  have hvalues : PrefixFree [versionRequest, .string "command"] := by decide +kernel
  have hbytes : chunks.flatten = request.text := by
    simp [chunks]
  have hcut : (serveAll env {} (fun _ => {}) 0 chunks versionService).length = 2 := by
    decide +kernel
  have hwhole : (serveAll env {} (fun _ => {}) 0 [request.text] versionService).length = 1 := by
    decide +kernel
  refine ⟨isRequest_messageOf hvalues (by simp) (by decide +kernel) ⟨_, rfl⟩, ?_,
    by decide +kernel, by decide +kernel, fun hsame => by rw [hsame, hwhole] at hcut; cases hcut⟩
  refine ⟨by decide +kernel, by decide +kernel, by decide +kernel, by simpa using hbytes, ?_⟩
  intro k
  rcases k with _ | _ | k
  · exact le_refl _
  · simp [chunks]
  · rw [List.take_of_length_le (by simp [chunks]), List.take_of_length_le (by simp), hbytes]
    simp

end Service

end DblService
