/-
What a new connection makes of a sequence of sends.

Ids are handed out on first use and never taken back by a send, so the paths used so far, in the
order of their first use, say everything about the outgoing table: the path at position `n` has
the id `firstAllocatedId + n`, and every other path has none.  `Handed` is this invariant.  A send
that fails leaves it alone, a send on a known path queues its message under the id that is there,
and a send on a new path puts one path at the end of the list.

`Trace` tells the queue from that list alone.  A run of sends is then an induction on the attempts,
with the paths used before them in place of the table.
-/
import PathWire.Proofs.Peer.Fidelity

namespace PathWire

variable {A : Application}

/-! ### Attempts -/

/-- A message that was sent. -/
structure Sent where
  path : Path
  priority : Priority
  bytes : Bytes

/-- An attempt to send a message, in the form that all ways of sending share. -/
structure Attempt (A : Application) : Type 1 where
  {Answer : Type}
  env : A.Env
  endpoint : NodeIndex
  value : Value A
  chosen : Option (LinkChoice A)
  priority : Priority
  payload : Payload A Answer

namespace Attempt

/-- Sends the message. -/
def make (attempt : Attempt A) (conn : Connection A) :
    Except ProtocolError (attempt.Answer × Connection A) :=
  conn.sendValue attempt.env attempt.endpoint attempt.value attempt.chosen attempt.priority
    attempt.payload

/-- The route of the message, if its endpoint is one and has one. -/
def route (attempt : Attempt A) (tree : Tree A) : Except ProtocolError (Route A) := do
  if !tree.isEndpoint attempt.endpoint then throw (.notAnEndpoint (tree.name attempt.endpoint))
  Route.resolve tree attempt.env attempt.endpoint attempt.value attempt.chosen

/-- The message under an id. -/
def compose (attempt : Attempt A) (conn : Connection A) (route : Route A) (id : Nat) :
    Except ProtocolError (attempt.Answer × Bytes) := do
  let enc ← Connection.writeKeys conn.tree attempt.env (route.keys.zip route.values)
    (Encoder.empty.writeU32 (UInt32.ofNat id))
  let (answer, enc) ← attempt.payload (conn.writeContext id route) conn.caches enc
  return (answer, enc.bytes)

/-- The message as it is sent on a connection. -/
def message (attempt : Attempt A) (conn : Connection A) : Except ProtocolError Sent := do
  let route ← attempt.route conn.tree
  let id ← Connection.idFor conn.ids route.nodes
  let (_, bytes) ← attempt.compose conn route id
  return ⟨route.nodes, attempt.priority, bytes⟩

end Attempt

namespace Connection

/-- The connection after some attempts. -/
def sendAll (conn : Connection A) (attempts : List (Attempt A)) : Connection A :=
  attempts.foldl (fun conn attempt => conn.afterSend (attempt.make conn)) conn

/-- The messages of the attempts that succeed, in order. -/
def sent (conn : Connection A) : List (Attempt A) → List Sent
  | [] => []
  | attempt :: rest =>
    match attempt.make conn, attempt.message conn with
    | .ok (_, after), .ok message => message :: after.sent rest
    | _, _ => conn.sent rest

end Connection

/-! ### What is queued for them -/

namespace Sent

/-- The paths used after one more message. -/
def use (known : List Path) (path : Path) : List Path :=
  if path ∈ known then known else known ++ [path]

/-- The paths used after some messages, in the order of their first use. -/
def uses (known : List Path) (messages : List Sent) : List Path :=
  messages.foldl (fun known message => use known message.path) known

/-- The id of a path is its place among those used. -/
def idOf (known : List Path) (path : Path) : Nat := firstAllocatedId + known.idxOf path

end Sent

/-- The queue of some messages, if `known` are the paths used before them: each message is queued
under the id of its path, and behind an announce if the path is new.  A new path gets the next id,
which is not above the largest one. -/
inductive Trace (tree : Tree A) (maxId : Nat) :
    (known : List Path) → List Sent → List Outbound → Prop
  | nothing {known : List Path} : Trace tree maxId known [] []
  | again {known : List Path} {message : Sent} {rest : List Sent} {queued : List Outbound}
      (hknown : message.path ∈ known)
      (htag : messageTag? message.bytes = some (Sent.idOf known message.path))
      (hrest : Trace tree maxId known rest queued) :
      Trace tree maxId known (message :: rest) (⟨message.bytes, message.priority⟩ :: queued)
  | first {known : List Path} {message : Sent} {rest : List Sent} {queued : List Outbound}
      {announce : Bytes} (hnew : message.path ∉ known)
      (hroom : firstAllocatedId + known.length ≤ maxId)
      (hannounce : Connection.announce tree (firstAllocatedId + known.length) message.path
        = .ok announce)
      (htag : messageTag? message.bytes = some (firstAllocatedId + known.length))
      (hrest : Trace tree maxId (known ++ [message.path]) rest queued) :
      Trace tree maxId known (message :: rest)
        (⟨announce, message.priority⟩ :: ⟨message.bytes, message.priority⟩ :: queued)

/-! ### One attempt -/

/-- The outgoing ids are those of the paths used so far. -/
structure IdTables.Handed (ids : IdTables) (used : List Path) : Prop where
  once : used.Nodup
  next : ids.nextFreeId = firstAllocatedId + used.length
  room : used = [] ∨ firstAllocatedId + used.length ≤ ids.maxId + 1
  again : ∀ {path : Path}, path ∈ used → ids.outgoing? path = some (Sent.idOf used path)
  fresh : ∀ {path : Path}, path ∉ used → ids.outgoing? path = none

namespace IdTables.Handed

variable {ids : IdTables} {used : List Path} {path : Path}

theorem start (maxId : Nat) : (new maxId).Handed [] where
  once := .nil
  next := rfl
  room := .inl rfl
  again h := by cases h
  fresh _ := rfl

/-- The id of a used path is in range. -/
theorem idOf_le (h : ids.Handed used) (hpath : path ∈ used) :
    Sent.idOf used path ≤ ids.maxId := by
  have hindex : used.idxOf path < used.length := List.idxOf_lt_length_of_mem hpath
  rcases h.room with hnil | hroom
  · rw [hnil] at hpath
    cases hpath
  · unfold Sent.idOf
    omega

/-- The next new path gets the next id, or there is none left. -/
theorem peekNext_eq (h : ids.Handed used) : ids.peekNext =
    if ids.maxId < firstAllocatedId + used.length then .error (.idsExhausted ids.maxId)
    else .ok (firstAllocatedId + used.length) := by
  rw [peekNext, h.next]

/-- A new path is the last one used. -/
theorem commit (h : ids.Handed used) (hnew : path ∉ used)
    (hroom : firstAllocatedId + used.length ≤ ids.maxId) :
    (ids.commit path (firstAllocatedId + used.length)).Handed (used ++ [path]) := by
  have hlast : Sent.idOf (used ++ [path]) path = firstAllocatedId + used.length := by
    simp [Sent.idOf, List.idxOf_append, hnew]
  refine ⟨?_, ?_, .inr ?_, ?_, ?_⟩
  · exact h.once.append (List.nodup_singleton path) (by simpa using hnew)
  · simp [IdTables.commit, Nat.add_assoc]
  · simp only [IdTables.commit, List.length_append, List.length_singleton]
    omega
  · intro other hother
    rw [outgoing?_commit]
    by_cases hsame : other = path
    · rw [if_pos hsame, hsame, hlast]
    · have hold : other ∈ used := by simpa [hsame] using hother
      rw [if_neg hsame, h.again hold]
      simp [Sent.idOf, List.idxOf_append, hold]
  · intro other hother
    simp only [List.mem_append, List.mem_singleton, not_or] at hother
    rw [outgoing?_commit, if_neg hother.2, h.fresh hother.1]

end IdTables.Handed

namespace Attempt

variable {conn : Connection A} {used : List Path} {attempt : Attempt A} {route : Route A}

/-- An attempt finds a route and an id, composes the message, and queues it behind an announce if
the path is new. -/
theorem make_eq (attempt : Attempt A) (conn : Connection A) :
    attempt.make conn = do
      let route ← attempt.route conn.tree
      let id ← Connection.idFor conn.ids route.nodes
      let (answer, bytes) ← attempt.compose conn route id
      let conn ← conn.introduce id route.nodes attempt.priority
      return (answer, conn.enqueue bytes attempt.priority) := by
  unfold make Connection.sendValue Attempt.route compose
  by_cases hendpoint : conn.tree.isEndpoint attempt.endpoint = true
  · simp [hendpoint]
  · simp [hendpoint]

/-- On a path that was used before, the message is queued if it can be composed. -/
theorem make_again (h : conn.ids.Handed used) (hroute : attempt.route conn.tree = .ok route)
    (hpath : route.nodes ∈ used) :
    attempt.make conn = (attempt.compose conn route (Sent.idOf used route.nodes)).map
      fun result => (result.1, conn.enqueue result.2 attempt.priority) := by
  have hid : Connection.idFor conn.ids route.nodes = .ok (Sent.idOf used route.nodes) := by
    simp only [Connection.idFor, h.again hpath]
  have hintroduce : conn.introduce (Sent.idOf used route.nodes) route.nodes attempt.priority
      = .ok conn := by
    simp only [Connection.introduce, h.again hpath]
    rfl
  rw [make_eq, Result.bind_ok hroute, Result.bind_ok hid]
  cases attempt.compose conn route (Sent.idOf used route.nodes) with
  | error cause => rfl
  | ok result => exact Result.bind_ok hintroduce

/-- On a new path, the message is queued behind an announce if it can be composed and there is an
id left. -/
theorem make_first (h : conn.ids.Handed used) (hroute : attempt.route conn.tree = .ok route)
    (hpath : route.nodes ∉ used) :
    attempt.make conn =
      if conn.ids.maxId < firstAllocatedId + used.length then
        .error (.idsExhausted conn.ids.maxId)
      else do
        let id := firstAllocatedId + used.length
        let (answer, bytes) ← attempt.compose conn route id
        let announce ← Connection.announce conn.tree id route.nodes
        return (answer, (({ conn with ids := conn.ids.commit route.nodes id }.enqueue announce
          attempt.priority).enqueue bytes attempt.priority)) := by
  have hid : Connection.idFor conn.ids route.nodes = conn.ids.peekNext := by
    simp only [Connection.idFor, h.fresh hpath]
  rw [make_eq, Result.bind_ok hroute, hid, h.peekNext_eq]
  by_cases hfull : conn.ids.maxId < firstAllocatedId + used.length
  · rw [if_pos hfull, if_pos hfull]
    rfl
  · rw [if_neg hfull, if_neg hfull, Result.bind_ok rfl]
    simp only [Connection.introduce, h.fresh hpath]
    cases attempt.compose conn route (firstAllocatedId + used.length) with
    | error cause => rfl
    | ok result =>
        rw [Result.bind_ok rfl, Result.bind_ok rfl]
        cases Connection.announce conn.tree (firstAllocatedId + used.length) route.nodes with
        | error cause => rfl
        | ok announce => rfl

/-- A composed message starts with its id. -/
theorem compose_tag {id : Nat} {answer : attempt.Answer} {bytes : Bytes}
    (htree : conn.tree.WritesOn) (hpayload : attempt.payload.WritesOn) (hid : id < 2 ^ 32)
    (h : attempt.compose conn route id = .ok (answer, bytes)) :
    messageTag? bytes = some id := by
  obtain ⟨keyed, hkeyed, h⟩ := Result.of_bind_ok h
  obtain ⟨⟨found, written⟩, hwritten, h⟩ := Result.of_bind_ok h
  cases h
  have hextends : (Encoder.empty.writeU32 (UInt32.ofNat id)).Extends written :=
    (Connection.writeKeys_extends htree _ hkeyed).trans (hpayload _ _ _ _ _ hwritten)
  obtain ⟨dec, hread⟩ := hextends.read_start (Connection.mirrors_u32 .empty (UInt32.ofNat id))
  simp only [messageTag?, hread, UInt32.toNat_ofNat_of_lt' hid]

/-- What a success does: the queue goes on as the trace says. -/
theorem make_ok {after : Connection A} {answer : attempt.Answer} (h : conn.ids.Handed used)
    (hfield : conn.ids.maxId < 2 ^ 32) (htree : conn.tree.WritesOn)
    (hpayload : attempt.payload.WritesOn) (hsend : attempt.make conn = .ok (answer, after)) :
    ∃ message queued, attempt.message conn = .ok message ∧ after.tree = conn.tree ∧
      after.ids.maxId = conn.ids.maxId ∧ after.ids.Handed (Sent.use used message.path) ∧
      after.outbox = conn.outbox ++ queued ∧
      ∀ {rest more}, Trace conn.tree conn.ids.maxId (Sent.use used message.path) rest more →
        Trace conn.tree conn.ids.maxId used (message :: rest) (queued ++ more) := by
  cases hroute : attempt.route conn.tree with
  | error cause =>
      rw [make_eq, hroute] at hsend
      cases hsend
  | ok route =>
      by_cases hpath : route.nodes ∈ used
      · rw [make_again h hroute hpath] at hsend
        cases hcompose : attempt.compose conn route (Sent.idOf used route.nodes) with
        | error cause =>
            rw [hcompose] at hsend
            cases hsend
        | ok result =>
            rw [hcompose] at hsend
            cases hsend
            have huse : Sent.use used route.nodes = used := if_pos hpath
            have htag := compose_tag htree hpayload
              (Nat.lt_of_le_of_lt (h.idOf_le hpath) hfield) hcompose
            refine ⟨⟨route.nodes, attempt.priority, result.2⟩, [⟨result.2, attempt.priority⟩], ?_,
              rfl, rfl, ?_, rfl, ?_⟩
            · rw [message, Result.bind_ok hroute, Connection.idFor, h.again hpath,
                Result.bind_ok rfl, Result.bind_ok hcompose]
              rfl
            · rw [huse]
              exact h
            · intro rest more hrest
              rw [huse] at hrest
              exact .again hpath htag hrest
      · rw [make_first h hroute hpath] at hsend
        by_cases hfull : conn.ids.maxId < firstAllocatedId + used.length
        · rw [if_pos hfull] at hsend
          cases hsend
        · rw [if_neg hfull] at hsend
          obtain ⟨result, hcompose, hsend⟩ := Result.of_bind_ok hsend
          obtain ⟨announce, hannounce, hsend⟩ := Result.of_bind_ok hsend
          cases hsend
          have huse : Sent.use used route.nodes = used ++ [route.nodes] := if_neg hpath
          have hroom := Nat.le_of_not_lt hfull
          have htag := compose_tag htree hpayload (Nat.lt_of_le_of_lt hroom hfield) hcompose
          refine ⟨⟨route.nodes, attempt.priority, result.2⟩,
            [⟨announce, attempt.priority⟩, ⟨result.2, attempt.priority⟩], ?_, rfl, rfl, ?_, ?_, ?_⟩
          · rw [message, Result.bind_ok hroute, Connection.idFor, h.fresh hpath]
            simp only [h.peekNext_eq, if_neg hfull]
            rw [Result.bind_ok rfl, Result.bind_ok hcompose]
            rfl
          · rw [huse]
            exact h.commit hpath hroom
          · simp [Connection.enqueue]
          · intro rest more hrest
            rw [huse] at hrest
            exact .first hpath hroom hannounce htag hrest

end Attempt

/-! ### All attempts -/

namespace Sent

theorem prefix_use (known : List Path) (path : Path) : known <+: use known path := by
  unfold use
  by_cases h : path ∈ known
  · rw [if_pos h]
  · rw [if_neg h]
    exact List.prefix_append known [path]

theorem prefix_uses (messages : List Sent) :
    ∀ known : List Path, known <+: uses known messages := by
  induction messages with
  | nil => intro known; exact List.prefix_rfl
  | cons message rest ih => intro known; exact (prefix_use known message.path).trans (ih _)

theorem mem_use (known : List Path) (path other : Path) :
    other ∈ use known path ↔ other ∈ known ∨ other = path := by
  unfold use
  by_cases h : path ∈ known
  · rw [if_pos h]
    refine ⟨.inl, ?_⟩
    rintro (hother | rfl)
    · exact hother
    · exact h
  · rw [if_neg h]
    simp

theorem mem_uses (messages : List Sent) (path : Path) : ∀ known : List Path,
    path ∈ uses known messages ↔ path ∈ known ∨ path ∈ messages.map Sent.path := by
  induction messages with
  | nil => intro known; simp [uses]
  | cons message rest ih =>
      intro known
      show path ∈ uses (use known message.path) rest ↔ _
      rw [ih, mem_use, List.map_cons, List.mem_cons, or_assoc]

/-- There are as many ids as different paths. -/
theorem length_uses {messages : List Sent} (h : (uses [] messages).Nodup) :
    (uses [] messages).length = (messages.map Sent.path).dedup.length := by
  refine List.Perm.length_eq ?_
  rw [List.perm_ext_iff_of_nodup h (List.nodup_dedup _)]
  intro path
  rw [mem_uses, List.mem_dedup]
  simp

/-- A message on a path that was used uses no new one. -/
theorem uses_known {known : List Path} {message : Sent} (h : message.path ∈ known)
    (rest : List Sent) : uses known (message :: rest) = uses known rest := by
  show uses (use known message.path) rest = _
  rw [use, if_pos h]

theorem uses_new {known : List Path} {message : Sent} (h : message.path ∉ known)
    (rest : List Sent) : uses known (message :: rest) = uses (known ++ [message.path]) rest := by
  show uses (use known message.path) rest = _
  rw [use, if_neg h]

/-- A path keeps its id. -/
theorem idOf_prefix {known more : List Path} {path : Path} (h : known <+: more)
    (hpath : path ∈ known) : idOf more path = idOf known path := by
  obtain ⟨last, rfl⟩ := h
  simp [idOf, List.idxOf_append, hpath]

end Sent

/-- Every message of a trace carries the id of its path. -/
theorem Trace.tags {tree : Tree A} {maxId : Nat} {known : List Path} {messages : List Sent}
    {queued : List Outbound} (h : Trace tree maxId known messages queued) :
    ∀ message ∈ messages, message.path ∈ Sent.uses known messages ∧
      messageTag? message.bytes = some (Sent.idOf (Sent.uses known messages) message.path) := by
  induction h with
  | nothing => intro message hmessage; cases hmessage
  | @again known first rest queued hknown htag hrest ih =>
      intro message hmessage
      rw [Sent.uses_known hknown]
      rcases List.mem_cons.mp hmessage with rfl | hlater
      · have hearly := Sent.prefix_uses rest known
        exact ⟨hearly.subset hknown, by rw [htag, Sent.idOf_prefix hearly hknown]⟩
      · exact ih message hlater
  | @first known first rest queued announce hnew hroom hannounce htag hrest ih =>
      intro message hmessage
      rw [Sent.uses_new hnew]
      rcases List.mem_cons.mp hmessage with rfl | hlater
      · have hearly := Sent.prefix_uses rest (known ++ [message.path])
        have hmem : message.path ∈ known ++ [message.path] := by simp
        refine ⟨hearly.subset hmem, ?_⟩
        rw [htag, Sent.idOf_prefix hearly hmem]
        simp [Sent.idOf, List.idxOf_append, hnew]
      · exact ih message hlater

/-- A queue goes on where it ended. -/
theorem Trace.append {tree : Tree A} {maxId : Nat} {known : List Path} {messages more : List Sent}
    {queued rest : List Outbound} (h : Trace tree maxId known messages queued)
    (hmore : Trace tree maxId (Sent.uses known messages) more rest) :
    Trace tree maxId known (messages ++ more) (queued ++ rest) := by
  induction h with
  | nothing => exact hmore
  | again hknown htag _ ih =>
      rw [Sent.uses_known hknown] at hmore
      exact .again hknown htag (ih hmore)
  | first hnew hroom hannounce htag _ ih =>
      rw [Sent.uses_new hnew] at hmore
      exact .first hnew hroom hannounce htag (ih hmore)

namespace Connection

/-- What a run of attempts does, from any state of the ids. -/
theorem sendAll_trace (attempts : List (Attempt A)) : ∀ {conn : Connection A} {used : List Path},
    conn.ids.Handed used → conn.ids.maxId < 2 ^ 32 → conn.tree.WritesOn →
    (∀ attempt ∈ attempts, attempt.payload.WritesOn) →
      ∃ queued, (conn.sendAll attempts).outbox = conn.outbox ++ queued ∧
        Trace conn.tree conn.ids.maxId used (conn.sent attempts) queued ∧
        (conn.sendAll attempts).tree = conn.tree ∧
        (conn.sendAll attempts).ids.maxId = conn.ids.maxId ∧
        (conn.sendAll attempts).ids.Handed (Sent.uses used (conn.sent attempts)) := by
  induction attempts with
  | nil =>
      intro conn used h _ _ _
      exact ⟨[], (List.append_nil _).symm, .nothing, rfl, rfl, h⟩
  | cons attempt rest ih =>
      intro conn used h hfield htree hpayloads
      have hpayload := hpayloads attempt List.mem_cons_self
      have hlater : ∀ later ∈ rest, later.payload.WritesOn := fun later hmem =>
        hpayloads later (List.mem_cons_of_mem _ hmem)
      cases hsend : attempt.make conn with
      | error cause =>
          have hall : conn.sendAll (attempt :: rest) = conn.sendAll rest := by
            simp only [sendAll, List.foldl_cons, hsend, afterSend]
          have hsent : conn.sent (attempt :: rest) = conn.sent rest := by
            simp only [sent, hsend]
          rw [hall, hsent]
          exact ih h hfield htree hlater
      | ok result =>
          obtain ⟨answer, after⟩ := result
          obtain ⟨message, queued, hmessage, hsame, hmax, hhanded, houtbox, htrace⟩ :=
            Attempt.make_ok h hfield htree hpayload hsend
          obtain ⟨more, hmore, hrest, htree', hmax', hhanded'⟩ :=
            ih hhanded (by rwa [hmax]) (by rwa [hsame]) hlater
          have hall : conn.sendAll (attempt :: rest) = after.sendAll rest := by
            simp only [sendAll, List.foldl_cons, hsend, afterSend]
          have hsent : conn.sent (attempt :: rest) = message :: after.sent rest := by
            simp only [sent, hsend, hmessage]
          rw [hall, hsent]
          refine ⟨queued ++ more, ?_, ?_, ?_, ?_, hhanded'⟩
          · rw [hmore, houtbox, List.append_assoc]
          · rw [hsame, hmax] at hrest
            exact htrace hrest
          · rw [htree', hsame]
          · rw [hmax', hmax]

/-- What is known of a fresh connection after some attempts. -/
structure SendsTraced (fresh : Connection A) (attempts : List (Attempt A)) : Prop where
  /-- The messages of the attempts that succeed are what is queued, in order and each with its
  priority, and each new path behind one announce for the next id. -/
  queued : Trace fresh.tree fresh.ids.maxId [] (fresh.sent attempts)
    (fresh.sendAll attempts).drain.1
  /-- Messages share an id exactly if they share a path. -/
  ids : ∀ one ∈ fresh.sent attempts, ∀ other ∈ fresh.sent attempts,
    messageTag? one.bytes = messageTag? other.bytes ↔ one.path = other.path
  /-- A further attempt that fails changes nothing. -/
  refused : ∀ (next : Attempt A) (cause : ProtocolError),
    next.make (fresh.sendAll attempts) = .error cause →
      fresh.sendAll (attempts ++ [next]) = fresh.sendAll attempts
  /-- A further attempt on a known path queues its message under the id of the path, whatever ids
  are left, if the carriers and the payload can be written. -/
  again : ∀ (next : Attempt A) (route : Route A), next.route fresh.tree = .ok route →
    ∀ message ∈ fresh.sent attempts, message.path = route.nodes →
      ∀ id, messageTag? message.bytes = some id →
        next.make (fresh.sendAll attempts) =
          (next.compose (fresh.sendAll attempts) route id).map fun result =>
            (result.1, (fresh.sendAll attempts).enqueue result.2 next.priority)
  /-- A further attempt on a new path fails if the ids have run out. -/
  exhausted : ∀ (next : Attempt A) (route : Route A), next.route fresh.tree = .ok route →
    (∀ message ∈ fresh.sent attempts, message.path ≠ route.nodes) →
      fresh.ids.maxId < firstAllocatedId + ((fresh.sent attempts).map Sent.path).dedup.length →
        next.make (fresh.sendAll attempts) = .error (.idsExhausted fresh.ids.maxId)

/-- **Ids are handed out in the order of first use.**  Whatever is sent on a fresh connection, and
whether it fails or not, the queue holds the messages that were sent, announced once for each path
under consecutive ids that stay in range. -/
theorem sends_traced {tree : Tree A} (htree : tree.WritesOn) (label : String)
    (attachment : Option (Value A)) (attempts : List (Attempt A))
    (hpayloads : ∀ attempt ∈ attempts, attempt.payload.WritesOn) :
    (Connection.new tree label attachment).SendsTraced attempts := by
  have hfield : tree.revision.maxIncomingId.toNat < 2 ^ 32 := tree.revision.maxIncomingId.toNat_lt
  have hstart : (Connection.new tree label attachment).ids.Handed [] := IdTables.Handed.start _
  obtain ⟨queued, houtbox, htrace, hsame, hmax, hhanded⟩ :=
    sendAll_trace attempts hstart hfield htree hpayloads
  refine ⟨?_, ?_, ?_, ?_, ?_⟩
  · rw [drain, houtbox]
    exact htrace
  · intro one hone other hother
    obtain ⟨hmem, htag⟩ := htrace.tags one hone
    rw [htag, (htrace.tags other hother).2, Option.some.injEq, Sent.idOf, Sent.idOf,
      Nat.add_left_cancel_iff, List.idxOf_inj hmem]
  · intro next cause hnext
    simp only [sendAll, List.foldl_append, List.foldl_cons, List.foldl_nil] at hnext ⊢
    rw [hnext, afterSend]
  · intro next route hroute message hmessage hpath id hid
    obtain ⟨hmem, htag⟩ := htrace.tags message hmessage
    rw [hpath] at hmem htag
    have hplace := Option.some.inj (htag.symm.trans hid)
    rw [← hplace]
    exact Attempt.make_again hhanded (by rw [hsame]; exact hroute) hmem
  · intro next route hroute hnew hfull
    have hpath : route.nodes ∉
        Sent.uses [] ((Connection.new tree label attachment).sent attempts) := by
      rw [Sent.mem_uses]
      rintro (hnil | hsent)
      · cases hnil
      · obtain ⟨message, hmessage, hsame⟩ := List.mem_map.mp hsent
        exact hnew message hmessage hsame
    rw [← Sent.length_uses hhanded.once] at hfull
    rw [Attempt.make_first hhanded (by rw [hsame]; exact hroute) hpath, hmax, if_pos hfull]

end Connection

/-! A lamp that hangs in the hall or in the attic, and a bell, with two ids for all of them. -/

namespace Porch

open House (number turn)

/-- The porch under construction: the hall is node 1, the attic node 2 and the lamp node 3. -/
def declare : Building house Unit := do
  let hall ← Building.group .root "hall"
  let attic ← Building.group .root "attic"
  let lamp ← Building.dynamic number "lamp" none
  let _ ← Building.link hall lamp "spot" fun _ _ => some (1 : Nat)
  let _ ← Building.link attic lamp "spot" fun _ _ => some (2 : Nat)
  let _ ← Building.endpoint lamp "switch" House.decodeSwitch
  let _ ← Building.signal .root "bell" fun _ _ _ => pure ()

def tree : Tree house :=
  match declare (.new { Revision.zero with maxIncomingId := 4 }) with
  | .ok _ builder | .error _ builder => builder.build

/-- The lamp is switched through one of its two places. -/
def switchAt (place : NodeIndex) (payload : Payload house Unit) : Attempt house where
  env := ()
  endpoint := ⟨6⟩
  value := ⟨number, (1 : Nat)⟩
  chosen := some ⟨place, ⟨3⟩, .unit⟩
  priority := .normal
  payload := payload

/-- The bell is rung. -/
def ring : Attempt house where
  env := ()
  endpoint := ⟨7⟩
  value := .unit
  chosen := none
  priority := .urgent
  payload := .nothing

/-- A payload that cannot be written. -/
def broken : Payload house Unit := fun _ _ _ => .error .valueType

/-- The lamp is switched in the hall, once in vain in the attic and then twice there. -/
def attempts : List (Attempt house) :=
  [switchAt ⟨4⟩ (turn true), switchAt ⟨5⟩ broken, switchAt ⟨5⟩ (turn true), switchAt ⟨5⟩ (turn false)]

theorem tree_writesOn : tree.WritesOn := by
  intro index node carrier hnode hcarrier env value enc after hwrite
  obtain ⟨position⟩ := index
  rcases position with _ | _ | _ | _ | _ | _ | _ | _ | position
  · cases hnode
    cases hcarrier
  · cases hnode
    cases hcarrier
  · cases hnode
    cases hcarrier
  · cases hnode
    cases hcarrier
  · cases hnode
    cases hcarrier
    cases hwrite
    exact .refl enc
  · cases hnode
    cases hcarrier
    cases hwrite
    exact .refl enc
  · cases hnode
    cases hcarrier
  · cases hnode
    cases hcarrier
  · cases hnode

theorem turn_writesOn (on : Bool) : (turn on).WritesOn := by
  intro ctx caches enc answer after h
  cases h
  have hwrite : enc.write (.bool on) = .ok (enc.writeBool on) := rfl
  exact .of_write hwrite

theorem broken_writesOn : broken.WritesOn := by
  intro ctx caches enc answer after h
  cases h

/-- The two ids go to the two places of the lamp, the attempt that fails takes none, and there is
none left for the bell. -/
theorem switches_traced :
    (Connection.new tree "porch" none).SendsTraced attempts ∧
      ((Connection.new tree "porch" none).sendAll attempts).outbox.map
        (fun out => messageTag? out.bytes) = [some 0, some 3, some 0, some 4, some 4] ∧
      ring.make ((Connection.new tree "porch" none).sendAll attempts) = .error (.idsExhausted 4) := by
  have hpayloads : ∀ attempt ∈ attempts, attempt.payload.WritesOn := by
    simp [attempts, switchAt, turn_writesOn, broken_writesOn]
  have htraced := Connection.sends_traced tree_writesOn "porch" none attempts hpayloads
  have hpaths : ((Connection.new tree "porch" none).sent attempts).map Sent.path
      = [[⟨1⟩, ⟨4⟩, ⟨6⟩], [⟨2⟩, ⟨5⟩, ⟨6⟩], [⟨2⟩, ⟨5⟩, ⟨6⟩]] := rfl
  have hring : ring.route tree = .ok ⟨[⟨7⟩], [], []⟩ := rfl
  refine ⟨htraced, by decide +kernel, htraced.exhausted ring _ hring ?_ ?_⟩
  · intro message hmessage hsame
    have hmem := List.mem_map_of_mem (f := Sent.path) hmessage
    rw [hpaths, hsame] at hmem
    exact absurd hmem (by decide)
  · rw [hpaths]
    decide

end Porch

end PathWire
