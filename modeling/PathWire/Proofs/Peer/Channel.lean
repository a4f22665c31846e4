/-
One direction of a link.

The path of a message is not in the message, so the receiver has to find it under the id.  What
makes this work is that no message overtakes the announce of its path: `Channel` is the invariant
that says so, of everything that was queued, that is under way and that has come through.
-/
import PathWire.Proofs.Peer.Send

namespace PathWire

variable {A : Application}

/-- A queued message is on a path with an id, and is its announce or starts with that id. -/
structure Filed (tree : Tree A) (ids : IdTables) (posted : Posted) : Prop where
  passable : tree.Passable posted.path
  carriers : ResolvedPath.carriers tree posted.path = .ok posted.keys
  numbered : ∃ id, ids.outgoing? posted.path = some id ∧
    (Connection.announce tree id posted.path = .ok posted.bytes ∨
      messageTag? posted.bytes = some (UInt32.ofNat id).toNat)

namespace Posted

/-- A queued message that announces its path. -/
def IsAnnounce (posted : Posted) : Prop := messageTag? posted.bytes = some announceTag

/-- The path of a queued message, with what is derived from it. -/
def resolved (tree : Tree A) (posted : Posted) : ResolvedPath :=
  ⟨posted.path, posted.keys, tree.pathLength posted.path, tree.dotted posted.path⟩

end Posted

theorem Filed.resolved {tree : Tree A} {ids : IdTables} {posted : Posted}
    (h : Filed tree ids posted) :
    ResolvedPath.ofNodes tree posted.path = .ok (posted.resolved tree) := by
  unfold ResolvedPath.ofNodes
  rw [Result.bind_ok h.carriers]
  rfl

/-- Messages on one path have its carriers in common. -/
theorem Filed.resolved_eq {tree : Tree A} {ids : IdTables} {posted other : Posted}
    (h : Filed tree ids posted) (hother : Filed tree ids other) (hsame : other.path = posted.path) :
    other.resolved tree = posted.resolved tree := by
  have heq := hother.resolved
  rw [hsame, h.resolved] at heq
  exact (Except.ok.inj heq).symm

/-! ### What a receiver has bound -/

/-- A receiver has bound what was announced in the messages that it has heard, and nothing else;
the ids are the sender's. -/
structure Caught (tree : Tree A) (ids : IdTables) (heard : List Posted) (receiver : IdTables) :
    Prop where
  numbered : ids.Numbered
  filed : ∀ message ∈ heard, Filed tree ids message
  bound : ∀ {id : Nat} {resolved : ResolvedPath}, receiver.bound? id = some resolved ↔
    ∃ first ∈ heard, first.IsAnnounce ∧ ids.outgoing? first.path = some id ∧
      first.resolved tree = resolved

/-- A message that has an id is its announce or starts with the id, and not both. -/
theorem Filed.kind {tree : Tree A} {ids : IdTables} {message : Posted}
    (h : Filed tree ids message) (hnumbered : ids.Numbered) (hfield : ids.maxId < 2 ^ 32) :
    ∃ id, ids.outgoing? message.path = some id ∧ id < 2 ^ 32 ∧
      (message.IsAnnounce ∧ Connection.announce tree id message.path = .ok message.bytes ∨
        ¬ message.IsAnnounce ∧ messageTag? message.bytes = some id) := by
  obtain ⟨id, hid, hkind⟩ := h.numbered
  obtain ⟨hidField, hsize, hordinary⟩ := hnumbered.field hfield hid
  refine ⟨id, hid, hsize, ?_⟩
  rcases hkind with hbytes | htag
  · exact .inl ⟨Connection.announce_tag hbytes, hbytes⟩
  · rw [hidField] at htag
    refine .inr ⟨fun hannounce => ?_, htag⟩
    exact hordinary (Option.some.inj (htag.symm.trans hannounce))

namespace Caught

variable {tree : Tree A} {ids receiver bound : IdTables} {heard : List Posted} {message : Posted}

theorem start {maxId : Nat} (hnumbered : ids.Numbered) : Caught tree ids [] (.new maxId) where
  numbered := hnumbered
  filed := nofun
  bound := by
    intro id resolved
    simp [IdTables.new, IdTables.bound?]

/-- **An announce is accepted**, and binds its id. -/
theorem accepts (h : Caught tree ids heard receiver) (hfiled : Filed tree ids message)
    (hshaped : tree.Shaped) (hpaths : ids.Announceable)
    (hfield : ids.maxId < 2 ^ 32) (hmax : receiver.maxId = ids.maxId)
    (hannounce : message.IsAnnounce)
    {conn : Connection A} (htree : conn.tree = tree) (hids : conn.ids = receiver) :
    ∃ id bound, ids.outgoing? message.path = some id ∧
      (∀ env, conn.receive env message.bytes =
        ⟨.ok (.registered id (tree.dotted message.path)), { conn with ids := bound }, []⟩) ∧
      bound.maxId = receiver.maxId ∧
      ∀ other, bound.bound? other =
        if other = id then some (message.resolved tree) else receiver.bound? other := by
  rcases hfiled.kind h.numbered hfield with ⟨id, hid, hsize, ⟨-, hbytes⟩ | ⟨hordinary, -⟩⟩
  case inr => exact absurd hannounce hordinary
  obtain ⟨hfirst, -, hrange⟩ := h.numbered.range hid
  have hcount := hpaths _ _ hid
  subst htree hids
  refine ⟨id, ?_⟩
  cases hbound : conn.ids.bound? id with
  | none =>
      exact ⟨_, hid, fun env => Connection.receive_announce hshaped hbytes hsize hfiled.passable
        hcount hfiled.resolved (IdTables.register_new hfirst (hmax ▸ hrange) hbound),
        rfl, IdTables.bound?_bind conn.ids id _⟩
  | some existing =>
      -- only the same path can have been announced with this id
      obtain ⟨first, hfirstMem, -, hfirstId, hexisting⟩ := h.bound.mp hbound
      have hsame : first.path = message.path := h.numbered.apart hfirstId hid
      rw [hfiled.resolved_eq (h.filed first hfirstMem) hsame] at hexisting
      subst hexisting
      refine ⟨_, hid, fun env => Connection.receive_announce hshaped hbytes hsize hfiled.passable
        hcount hfiled.resolved (IdTables.register_again hfirst (hmax ▸ hrange) hbound rfl), rfl, ?_⟩
      intro other
      by_cases hother : other = id
      · rw [if_pos hother, hother, hbound]
      · rw [if_neg hother]

/-- **The id of a message is bound to its path** if the announce of the path was heard. -/
theorem finds (h : Caught tree ids heard receiver) (hfiled : Filed tree ids message)
    (hmax : receiver.maxId = ids.maxId) {id : Nat} (hid : ids.outgoing? message.path = some id)
    {first : Posted} (hfirst : first ∈ heard) (hsame : first.path = message.path)
    (hannounce : first.IsAnnounce) : receiver.lookup id = .ok (message.resolved tree) := by
  obtain ⟨hlow, -, hrange⟩ := h.numbered.range hid
  have hbound : receiver.bound? id = some (message.resolved tree) :=
    h.bound.mpr ⟨first, hfirst, hannounce, hsame ▸ hid,
      hfiled.resolved_eq (h.filed first hfirst) hsame⟩
  exact IdTables.lookup_bound hlow (hmax ▸ hrange) hbound

/-- Without the announce of its path the id of a message is unknown. -/
theorem misses (h : Caught tree ids heard receiver) (hmax : receiver.maxId = ids.maxId) {id : Nat}
    (hid : ids.outgoing? message.path = some id)
    (hnone : ∀ first ∈ heard, first.path = message.path → ¬ first.IsAnnounce) :
    receiver.lookup id = .error (.unknownId id) := by
  obtain ⟨hlow, -, hrange⟩ := h.numbered.range hid
  refine IdTables.lookup_unbound hlow (hmax ▸ hrange) ?_
  cases hbound : receiver.bound? id with
  | none => rfl
  | some resolved =>
      obtain ⟨first, hfirst, hannounce, hfirstId, -⟩ := h.bound.mp hbound
      exact absurd hannounce (hnone first hfirst (h.numbered.apart hfirstId hid))

/-- An announce that was heard has bound its id. -/
theorem hear_announce (h : Caught tree ids heard receiver) (hfiled : Filed tree ids message)
    (hannounce : message.IsAnnounce) {known : Nat}
    (hknown : ids.outgoing? message.path = some known)
    (hbound : ∀ other, bound.bound? other =
      if other = known then some (message.resolved tree) else receiver.bound? other) :
    Caught tree ids (heard ++ [message]) bound := by
  have hall : ∀ one ∈ heard ++ [message], Filed tree ids one :=
    List.forall_mem_append.mpr ⟨h.filed, List.forall_mem_singleton.mpr hfiled⟩
  refine ⟨h.numbered, hall, ?_⟩
  intro id resolved
  rw [hbound]
  by_cases hid : id = known
  · subst hid
    rw [if_pos rfl]
    constructor
    · intro hresolved
      cases hresolved
      exact ⟨message, by simp, hannounce, hknown, rfl⟩
    · rintro ⟨first, hmem, -, hfirst, rfl⟩
      have hpath := h.numbered.apart hfirst hknown
      exact congrArg some (hfiled.resolved_eq (hall first hmem) hpath).symm
  · rw [if_neg hid, h.bound]
    constructor
    · rintro ⟨first, hmem, hfirst⟩
      exact ⟨first, List.mem_append_left _ hmem, hfirst⟩
    · rintro ⟨first, hmem, hfirst, hfirstId, hresolved⟩
      rcases List.mem_append.mp hmem with hmem | hmem
      · exact ⟨first, hmem, hfirst, hfirstId, hresolved⟩
      · rw [List.mem_singleton.mp hmem, hknown] at hfirstId
        exact absurd (Option.some.inj hfirstId).symm hid

/-- Any other message that was heard has bound nothing. -/
theorem hear_message (h : Caught tree ids heard receiver) (hfiled : Filed tree ids message)
    (hordinary : ¬ message.IsAnnounce) : Caught tree ids (heard ++ [message]) receiver := by
  refine ⟨h.numbered, List.forall_mem_append.mpr ⟨h.filed,
    List.forall_mem_singleton.mpr hfiled⟩, ?_⟩
  intro id resolved
  rw [h.bound]
  constructor
  · rintro ⟨first, hmem, hfirst⟩
    exact ⟨first, List.mem_append_left _ hmem, hfirst⟩
  · rintro ⟨first, hmem, hfirst, hresolved⟩
    rcases List.mem_append.mp hmem with hmem | hmem
    · exact ⟨first, hmem, hfirst, hresolved⟩
    · rw [List.mem_singleton.mp hmem] at hfirst
      exact absurd hfirst hordinary

/-- **Whatever is heard next**, the receiver has bound the announces and nothing else. -/
theorem receive (h : Caught tree ids heard receiver) (hfiled : Filed tree ids message)
    (hshaped : tree.Shaped) (hpaths : ids.Announceable)
    (hfield : ids.maxId < 2 ^ 32) (hmax : receiver.maxId = ids.maxId)
    {conn : Connection A} (htree : conn.tree = tree) (hids : conn.ids = receiver) (env : A.Env) :
    Caught tree ids (heard ++ [message]) (conn.receive env message.bytes).conn.ids := by
  by_cases hannounce : message.IsAnnounce
  · obtain ⟨known, bound, hknown, hreceive, -, hbound⟩ :=
      h.accepts hfiled hshaped hpaths hfield hmax hannounce htree hids
    rw [hreceive]
    exact h.hear_announce hfiled hannounce hknown hbound
  · rw [Connection.receive_ids hannounce, hids]
    exact h.hear_message hfiled hannounce

end Caught

/-! ### A direction -/

/-- The invariant of one direction: the sender's ids, what has not come through yet, what was ever
queued, how much of it has come through, and the receiver's ids. -/
structure Channel (tree : Tree A) (ids : IdTables) (pending : List Outbound)
    (posted : List Posted) (delivered : Nat) (receiver : IdTables) : Prop where
  numbered : ids.Numbered
  pending : (posted.drop delivered).map (·.bytes) = pending.map (·.bytes)
  bounded : delivered ≤ posted.length
  filed : ∀ message ∈ posted, Filed tree ids message
  /-- No message overtakes the announce of its path. -/
  preceded : ∀ {place : Nat} {message : Posted}, posted[place]? = some message →
    ¬ message.IsAnnounce → ∃ first ∈ posted.take place, first.path = message.path ∧ first.IsAnnounce
  /-- Every path with an id was announced. -/
  introduced : ∀ {path : Path} {id : Nat}, ids.outgoing? path = some id →
    ∃ first ∈ posted, first.path = path ∧ first.IsAnnounce
  /-- The receiver has bound what was announced and has come through. -/
  bound : ∀ {id : Nat} {resolved : ResolvedPath}, receiver.bound? id = some resolved ↔
    ∃ first ∈ posted.take delivered, first.IsAnnounce ∧ ids.outgoing? first.path = some id ∧
      first.resolved tree = resolved

namespace Channel

variable {tree : Tree A} {ids after receiver : IdTables} {outbox queued inFlight : List Outbound}
  {posted fresh : List Posted} {delivered : Nat}

theorem start (tree : Tree A) (maxId : Nat) :
    Channel tree (.new maxId) [] [] 0 (.new maxId) where
  numbered := IdTables.numbered_new maxId
  pending := rfl
  bounded := Nat.le_refl _
  filed message h := by cases h
  preceded h := by cases h
  introduced h := by cases h
  bound := by
    intro id resolved
    simp [IdTables.new, IdTables.bound?]

/-! What is queued keeps the invariant. -/

/-- Paths keep their ids. -/
theorem outgoing?_kept (hq : Queues tree ids outbox after queued fresh) {path : Path} {id : Nat}
    (h : ids.outgoing? path = some id) : after.outgoing? path = some id := by
  cases hq with
  | nothing => exact h
  | message _ _ _ _ => exact h
  | @introduced new _ _ _ _ _ _ _ hnew _ _ _ =>
      rw [IdTables.outgoing?_commit, if_neg, h]
      rintro rfl
      rw [hnew] at h
      cases h

/-- New messages are filed. -/
theorem filed_fresh (hq : Queues tree ids outbox after queued fresh) :
    ∀ message ∈ fresh, Filed tree after message := by
  cases hq with
  | nothing => intro message h; cases h
  | message hpath hkeys hknown htag =>
      intro message h
      obtain rfl := List.mem_singleton.mp h
      exact ⟨hpath, hkeys, _, hknown, .inr htag⟩
  | introduced hpath hkeys hnew hid hannounce htag =>
      have hknown : ∀ {path : Path} {id : Nat}, (ids.commit path id).outgoing? path = some id := by
        intro path id
        rw [IdTables.outgoing?_commit, if_pos rfl]
      intro message h
      rcases List.mem_cons.mp h with rfl | h
      · exact ⟨hpath, hkeys, _, hknown, .inl hannounce⟩
      · obtain rfl := List.mem_singleton.mp h
        exact ⟨hpath, hkeys, _, hknown, .inr htag⟩

/-- What is queued is what is posted. -/
theorem queued_bytes (hq : Queues tree ids outbox after queued fresh) :
    ∃ added, queued = outbox ++ added ∧ added.map (·.bytes) = fresh.map (·.bytes) := by
  cases hq with
  | nothing => exact ⟨[], (List.append_nil _).symm, rfl⟩
  | message _ _ _ _ => exact ⟨_, rfl, rfl⟩
  | introduced _ _ _ _ _ _ => exact ⟨_, List.append_assoc _ _ _, rfl⟩

/-- A new message that is no announce is on a path that had an id, or behind its announce. -/
theorem preceded_fresh (hq : Queues tree ids outbox after queued fresh) {place : Nat}
    {message : Posted} (hplace : fresh[place]? = some message) (hordinary : ¬ message.IsAnnounce) :
    (∃ id, ids.outgoing? message.path = some id) ∨
      ∃ first ∈ fresh.take place, first.path = message.path ∧ first.IsAnnounce := by
  cases hq with
  | nothing => cases hplace
  | message _ _ hknown _ =>
      have hmem := List.mem_of_getElem? hplace
      rw [List.mem_singleton.mp hmem]
      exact .inl ⟨_, hknown⟩
  | introduced _ _ _ _ hannounce _ =>
      have hfirst := Connection.announce_tag hannounce
      rcases place with _ | _ | place
      · cases hplace
        exact absurd hfirst hordinary
      · cases hplace
        exact .inr ⟨_, List.mem_cons_self, rfl, hfirst⟩
      · cases hplace

/-- A path that has an id now had one before, or was announced just now. -/
theorem introduced_fresh (hq : Queues tree ids outbox after queued fresh) {path : Path} {id : Nat}
    (h : after.outgoing? path = some id) : ids.outgoing? path = some id ∨
      ∃ first ∈ fresh, first.path = path ∧ first.IsAnnounce := by
  cases hq with
  | nothing => exact .inl h
  | message _ _ _ _ => exact .inl h
  | @introduced new _ _ _ _ _ _ _ _ _ hannounce _ =>
      rw [IdTables.outgoing?_commit] at h
      by_cases hsame : path = new
      · exact .inr ⟨_, List.mem_cons_self, hsame.symm, Connection.announce_tag hannounce⟩
      · rw [if_neg hsame] at h
        exact .inl h

/-- Whatever is queued, the invariant holds. -/
theorem queue (h : Channel tree ids (inFlight ++ outbox) posted delivered receiver)
    (hq : Queues tree ids outbox after queued fresh) :
    Channel tree after (inFlight ++ queued) (posted ++ fresh) delivered receiver := by
  obtain ⟨added, hqueued, hbytes⟩ := queued_bytes hq
  have hkept : ∀ {message}, message ∈ posted → ∀ {id}, after.outgoing? message.path = some id ↔
      ids.outgoing? message.path = some id := by
    intro message hmem id
    obtain ⟨known, hknown, -⟩ := (h.filed message hmem).numbered
    rw [outgoing?_kept hq hknown, hknown]
  constructor
  · cases hq with
    | nothing => exact h.numbered
    | message _ _ _ _ => exact h.numbered
    | introduced _ _ _ hid _ _ => exact h.numbered.commit hid _
  · rw [hqueued, List.drop_append_of_le_length h.bounded, ← List.append_assoc, List.map_append,
      List.map_append, h.pending, hbytes]
  · rw [List.length_append]
    exact Nat.le_add_right_of_le h.bounded
  · intro message hmem
    rcases List.mem_append.mp hmem with hmem | hmem
    · obtain ⟨hpath, hkeys, id, hid, hkind⟩ := h.filed message hmem
      exact ⟨hpath, hkeys, id, outgoing?_kept hq hid, hkind⟩
    · exact filed_fresh hq message hmem
  · intro place message hplace hordinary
    by_cases hold : place < posted.length
    · rw [List.getElem?_append_left hold] at hplace
      rw [List.take_append_of_le_length (Nat.le_of_lt hold)]
      exact h.preceded hplace hordinary
    · have hold : posted.length ≤ place := Nat.le_of_not_lt hold
      rw [List.getElem?_append_right hold] at hplace
      rw [List.take_append, List.take_of_length_le hold]
      rcases preceded_fresh hq hplace hordinary with ⟨id, hid⟩ | ⟨first, hmem, hfirst⟩
      · obtain ⟨first, hmem, hfirst⟩ := h.introduced hid
        exact ⟨first, List.mem_append_left _ hmem, hfirst⟩
      · exact ⟨first, List.mem_append_right _ hmem, hfirst⟩
  · intro path id hid
    rcases introduced_fresh hq hid with hid | ⟨first, hmem, hfirst⟩
    · obtain ⟨first, hmem, hfirst⟩ := h.introduced hid
      exact ⟨first, List.mem_append_left _ hmem, hfirst⟩
    · exact ⟨first, List.mem_append_right _ hmem, hfirst⟩
  · intro id resolved
    rw [h.bound, List.take_append_of_le_length h.bounded]
    constructor
    · rintro ⟨first, hmem, hannounce, hid, hresolved⟩
      exact ⟨first, hmem, hannounce, (hkept (List.mem_of_mem_take hmem)).mpr hid, hresolved⟩
    · rintro ⟨first, hmem, hannounce, hid, hresolved⟩
      exact ⟨first, hmem, hannounce, (hkept (List.mem_of_mem_take hmem)).mp hid, hresolved⟩

/-! What comes through keeps the invariant too. -/

/-- The message that comes through next is the oldest one that was posted and has not. -/
theorem next {pending : List Outbound} {message : Outbound} {rest : List Outbound}
    (h : Channel tree ids pending posted delivered receiver)
    (hpending : pending = message :: rest) :
    ∃ next, posted[delivered]? = some next ∧ next.bytes = message.bytes ∧
      (posted.drop (delivered + 1)).map (·.bytes) = rest.map (·.bytes) := by
  have hbytes := h.pending
  rw [hpending] at hbytes
  cases hdrop : posted.drop delivered with
  | nil =>
      rw [hdrop] at hbytes
      cases hbytes
  | cons next later =>
      rw [hdrop] at hbytes
      simp only [List.map_cons, List.cons.injEq] at hbytes
      refine ⟨next, ?_, hbytes.1, ?_⟩
      · have hhead := congrArg List.head? hdrop
        rwa [List.head?_drop] at hhead
      · have htail := congrArg List.tail hdrop
        rw [List.tail_drop] at htail
        rw [htail]
        exact hbytes.2

/-- The oldest message that was posted and has not come through is the next one to do so. -/
theorem coming {pending : List Outbound} {first : Posted} {rest : List Posted}
    (h : Channel tree ids pending posted delivered receiver)
    (hcoming : posted.drop delivered = first :: rest) :
    posted[delivered]? = some first ∧ posted.drop (delivered + 1) = rest ∧
      ∃ priority later, pending = ⟨first.bytes, priority⟩ :: later := by
  have hhead := congrArg List.head? hcoming
  have htail := congrArg List.tail hcoming
  rw [List.head?_drop] at hhead
  rw [List.tail_drop] at htail
  refine ⟨hhead, htail, ?_⟩
  have hbytes := h.pending
  rw [hcoming] at hbytes
  cases pending with
  | nil => cases hbytes
  | cons message later =>
      simp only [List.map_cons, List.cons.injEq] at hbytes
      exact ⟨message.priority, later, by rw [hbytes.1]⟩

variable {message : Posted}

/-- What has come through has been caught. -/
theorem caught (h : Channel tree ids inFlight posted delivered receiver) :
    Caught tree ids (posted.take delivered) receiver where
  numbered := h.numbered
  filed message hmem := h.filed message (List.mem_of_mem_take hmem)
  bound := h.bound

/-- A message that was posted is the announce of its path or starts with its id, and not both. -/
theorem kind (h : Channel tree ids inFlight posted delivered receiver)
    (hfield : ids.maxId < 2 ^ 32) (hmem : message ∈ posted) :
    ∃ id, ids.outgoing? message.path = some id ∧ id < 2 ^ 32 ∧
      (message.IsAnnounce ∧ Connection.announce tree id message.path = .ok message.bytes ∨
        ¬ message.IsAnnounce ∧ messageTag? message.bytes = some id) :=
  (h.filed message hmem).kind h.numbered hfield

/-- Where no path of the tree is too deep for an announce, none with an id is. -/
theorem announceable (h : Channel tree ids inFlight posted delivered receiver)
    (hdepth : tree.revision.maxPathDepth < 2 ^ 32) : ids.Announceable := by
  intro path id hid
  obtain ⟨first, hmem, rfl, -⟩ := h.introduced hid
  exact Nat.lt_of_le_of_lt (h.filed first hmem).passable.depth hdepth

/-- **An announce that comes through is accepted**, and binds its id. -/
theorem accepts_announce (h : Channel tree ids inFlight posted delivered receiver)
    (hshaped : tree.Shaped) (hpaths : ids.Announceable)
    (hfield : ids.maxId < 2 ^ 32) (hmax : receiver.maxId = ids.maxId)
    (hnext : posted[delivered]? = some message) (hannounce : message.IsAnnounce)
    {conn : Connection A} (htree : conn.tree = tree) (hids : conn.ids = receiver) :
    ∃ id bound, ids.outgoing? message.path = some id ∧
      (∀ env, conn.receive env message.bytes =
        ⟨.ok (.registered id (tree.dotted message.path)), { conn with ids := bound }, []⟩) ∧
      bound.maxId = receiver.maxId ∧
      ∀ other, bound.bound? other =
        if other = id then some (message.resolved tree) else receiver.bound? other :=
  h.caught.accepts (h.filed message (List.mem_of_getElem? hnext)) hshaped hpaths hfield hmax
    hannounce htree hids

/-- **The id of any other message that comes through is bound** to the path it was sent on. -/
theorem finds_path (h : Channel tree ids inFlight posted delivered receiver)
    (hfield : ids.maxId < 2 ^ 32) (hmax : receiver.maxId = ids.maxId)
    (hnext : posted[delivered]? = some message) (hordinary : ¬ message.IsAnnounce) :
    ∃ id, ids.outgoing? message.path = some id ∧ messageTag? message.bytes = some id ∧
      receiver.lookup id = .ok (message.resolved tree) := by
  have hmem := List.mem_of_getElem? hnext
  rcases h.kind hfield hmem with ⟨id, hid, -, ⟨hannounce, -⟩ | ⟨-, htag⟩⟩
  case inl => exact absurd hannounce hordinary
  obtain ⟨first, hfirst, hsame, hannounce⟩ := h.preceded hnext hordinary
  exact ⟨id, hid, htag, h.caught.finds (h.filed message hmem) hmax hid hfirst hsame hannounce⟩

/-- A direction after its next message has come through, from what the receiver has bound then. -/
theorem pass {pending rest : List Outbound} {arrived : Outbound} {bound : IdTables}
    (h : Channel tree ids pending posted delivered receiver) (hpending : pending = arrived :: rest)
    (hnext : posted[delivered]? = some message)
    (hcaught : Caught tree ids (posted.take delivered ++ [message]) bound) :
    Channel tree ids rest posted (delivered + 1) bound := by
  obtain ⟨same, hsame, -, hrest⟩ := h.next hpending
  have htake : posted.take (delivered + 1) = posted.take delivered ++ [message] := by
    rw [List.take_add_one, hnext, Option.toList_some]
  rw [← htake] at hcaught
  exact ⟨h.numbered, hrest, (List.getElem?_eq_some_iff.mp hnext).1, h.filed, h.preceded,
    h.introduced, hcaught.bound⟩

/-- An announce that has come through has bound its id. -/
theorem pass_announce {pending rest : List Outbound} {arrived : Outbound} {bound : IdTables}
    {known : Nat} (h : Channel tree ids pending posted delivered receiver)
    (hpending : pending = arrived :: rest) (hnext : posted[delivered]? = some message)
    (hannounce : message.IsAnnounce) (hknown : ids.outgoing? message.path = some known)
    (hbound : ∀ other, bound.bound? other =
      if other = known then some (message.resolved tree) else receiver.bound? other) :
    Channel tree ids rest posted (delivered + 1) bound :=
  h.pass hpending hnext (h.caught.hear_announce (h.filed message (List.mem_of_getElem? hnext))
    hannounce hknown hbound)

/-- Any other message that has come through has bound nothing. -/
theorem pass_message {pending rest : List Outbound} {arrived : Outbound}
    (h : Channel tree ids pending posted delivered receiver) (hpending : pending = arrived :: rest)
    (hnext : posted[delivered]? = some message) (hordinary : ¬ message.IsAnnounce) :
    Channel tree ids rest posted (delivered + 1) receiver :=
  h.pass hpending hnext (h.caught.hear_message (h.filed message (List.mem_of_getElem? hnext))
    hordinary)

/-- Whatever comes through, the invariant holds. -/
theorem deliver {pending rest : List Outbound} {arrived : Outbound}
    (h : Channel tree ids pending posted delivered receiver) (hpending : pending = arrived :: rest)
    (hshaped : tree.Shaped) (hpaths : ids.Announceable)
    (hfield : ids.maxId < 2 ^ 32) (hmax : receiver.maxId = ids.maxId)
    {conn : Connection A} (htree : conn.tree = tree) (hids : conn.ids = receiver) (env : A.Env) :
    Channel tree ids rest posted (delivered + 1) (conn.receive env arrived.bytes).conn.ids := by
  obtain ⟨message, hnext, hbytes, -⟩ := h.next hpending
  rw [← hbytes]
  exact h.pass hpending hnext (h.caught.receive (h.filed message (List.mem_of_getElem? hnext))
    hshaped hpaths hfield hmax htree hids env)

/-! Two things do not matter to a direction. -/

/-- What a sender has bound itself does not matter to what it sends. -/
theorem rebind {pending : List Outbound} (h : Channel tree ids pending posted delivered receiver)
    (incoming : Array (Option ResolvedPath)) :
    Channel tree { ids with incoming } pending posted delivered receiver where
  numbered := ⟨h.numbered.range, h.numbered.apart, h.numbered.next⟩
  pending := h.pending
  bounded := h.bounded
  filed message hmem :=
    have hfiled := h.filed message hmem
    ⟨hfiled.passable, hfiled.carriers, hfiled.numbered⟩
  preceded := h.preceded
  introduced := h.introduced
  bound := h.bound

/-- Of the receiver's ids only those matter that it has bound. -/
theorem of_bound {pending : List Outbound} {other : IdTables}
    (h : Channel tree ids pending posted delivered receiver)
    (hsame : other.incoming = receiver.incoming) :
    Channel tree ids pending posted delivered other where
  numbered := h.numbered
  pending := h.pending
  bounded := h.bounded
  filed := h.filed
  preceded := h.preceded
  introduced := h.introduced
  bound := by
    intro id resolved
    rw [← h.bound]
    unfold IdTables.bound?
    rw [hsame]

end Channel

end PathWire
