/-
The invariant of the caches in one direction.

An id is given out here and the put that tells the peer is queued behind everything else, so what
the peer holds is told by the ids given out so far and by how many messages have come through.
`Ledger` says so: the ids of a cache count up from zero without a gap, the first time that an id
was given out is the time when its put was queued, every put is on that list, and the peer holds
the objects of those puts that have come through.
-/
import PathWire.Proofs.Cache.Put

namespace PathWire

variable {A : Application}

/-! ### Ids that were given out -/

/-- An object that was given an id. -/
structure Assignment (A : Application) where
  item : A.Item
  cache : ObjectCache A item
  object : A.Object item
  id : Nat
  /-- How many messages had been queued when the id was given out. -/
  behind : Nat

namespace Assignment

/-- An id was given out in a slot. -/
def Of (slot id : Nat) (entry : Assignment A) : Bool := slot == entry.cache.slot && id == entry.id

/-- The first time that an id was given out in a slot. -/
def first? (log : List (Assignment A)) (slot id : Nat) : Option (Assignment A) :=
  log.find? (Of slot id)

variable {log : List (Assignment A)} {slot id : Nat} {entry found : Assignment A}

theorem of_iff : entry.Of slot id = true ↔ slot = entry.cache.slot ∧ id = entry.id := by
  simp [Of]

theorem first?_some (h : first? log slot id = some found) :
    found ∈ log ∧ slot = found.cache.slot ∧ id = found.id :=
  ⟨List.mem_of_find?_eq_some h, of_iff.mp (List.find?_some h)⟩

/-- Whatever was given out was given out a first time. -/
theorem first?_of_mem (h : entry ∈ log) :
    ∃ found, first? log entry.cache.slot entry.id = some found := by
  rw [← Option.isSome_iff_exists, first?, List.find?_isSome]
  exact ⟨entry, h, of_iff.mpr ⟨rfl, rfl⟩⟩

/-- What was given out a first time stays so. -/
theorem first?_append (h : first? log slot id = some found) (more : List (Assignment A)) :
    first? (log ++ more) slot id = some found := by
  unfold first? at h ⊢
  rw [List.find?_append, h, Option.some_or]

/-- One more entry is a first one only if its id was free. -/
theorem first?_snoc (log : List (Assignment A)) (entry : Assignment A) (slot id : Nat) :
    first? (log ++ [entry]) slot id = (first? log slot id).or
      (if slot = entry.cache.slot ∧ id = entry.id then some entry else none) := by
  unfold first?
  rw [List.find?_append, List.find?_singleton]
  congr 1
  by_cases hof : entry.Of slot id = true
  · rw [if_pos hof, if_pos (of_iff.mp hof)]
  · rw [if_neg hof, if_neg fun h => hof (of_iff.mpr h)]

/-- An id that is given out again changes nothing. -/
theorem first?_again (h : first? log entry.cache.slot entry.id = some found) :
    first? (log ++ [entry]) = first? log := by
  funext slot id
  rw [first?_snoc]
  by_cases hthis : slot = entry.cache.slot ∧ id = entry.id
  · obtain ⟨rfl, rfl⟩ := hthis
    rw [h, Option.some_or]
  · rw [if_neg hthis, Option.or_none]

/-- A new id is given out the first time. -/
theorem first?_new (h : first? log entry.cache.slot entry.id = none) :
    first? (log ++ [entry]) entry.cache.slot entry.id = some entry := by
  rw [first?_snoc, h, Option.none_or, if_pos ⟨rfl, rfl⟩]

/-- A first entry was one before, or it is the new one. -/
theorem first?_cases (h : first? (log ++ [entry]) slot id = some found) :
    first? log slot id = some found ∨ entry = found := by
  rw [first?_snoc] at h
  cases hold : first? log slot id with
  | some known =>
      rw [hold, Option.some_or] at h
      exact .inl h
  | none =>
      rw [hold, Option.none_or] at h
      by_cases hthis : slot = entry.cache.slot ∧ id = entry.id
      · rw [if_pos hthis] at h
        exact .inr (Option.some.inj h)
      · rw [if_neg hthis] at h
        cases h

end Assignment

/-! ### The ids of a table -/

namespace CacheTable

variable {item : A.Item} {table : CacheTable A item} {key : A.ObjectKey item} {id : Nat}

/-- The ids of a table are those below the next one, in order. -/
def Counted (table : CacheTable A item) : Prop :=
  table.outgoing.map (·.2) = List.range table.nextId

theorem counted_empty : (empty : CacheTable A item).Counted := rfl

theorem Counted.length (h : table.Counted) : table.outgoing.length = table.nextId := by
  rw [← List.length_map (·.2), h, List.length_range]

theorem Counted.lt (h : table.Counted) (hid : table.idOf? key = some id) : id < table.nextId := by
  have hmem : (key, id) ∈ table.outgoing := by
    obtain ⟨before, after, hsplit, -⟩ := List.lookup_eq_some_iff.mp hid
    rw [hsplit]
    simp
  have hrange : id ∈ table.outgoing.map (·.2) := List.mem_map_of_mem hmem
  rw [h] at hrange
  exact List.mem_range.mp hrange

theorem Counted.assign (h : table.Counted) (key : A.ObjectKey item) :
    (table.assign key).Counted := by
  have hids : table.outgoing.map (·.2) = List.range table.nextId := h
  simp only [Counted, CacheTable.assign, List.map_append, List.map_singleton, hids,
    List.range_succ]

theorem idOf?_assign (table : CacheTable A item) (key other : A.ObjectKey item) :
    (table.assign key).idOf? other = (table.idOf? other).or
      (if other = key then some table.nextId else none) := by
  simp only [idOf?, CacheTable.assign, List.lookup_append]
  congr 1
  by_cases hsame : other = key
  · subst hsame
    simp
  · simp [List.lookup, beq_eq_false_iff_ne.mpr hsame, hsame]

/-- Taking the newest id back leaves the table as it was before. -/
theorem Counted.release (h : table.Counted) (key : A.ObjectKey item) :
    table.SameOutgoing ((table.assign key).release table.nextId) where
  nextId := rfl
  outgoing := by
    have hids : ∀ entry ∈ table.outgoing, (entry.2 != table.nextId) = true := by
      intro entry hentry
      have hrange : entry.2 ∈ table.outgoing.map (·.2) := List.mem_map_of_mem hentry
      rw [h] at hrange
      exact bne_iff_ne.mpr (Nat.ne_of_lt (List.mem_range.mp hrange))
    simp only [CacheTable.release, CacheTable.assign, List.filter_append,
      List.filter_eq_self.mpr hids]
    simp

/-- Taking the newest id back leaves the whole table as it was before. -/
theorem Counted.release_eq (h : table.Counted) (key : A.ObjectKey item) :
    (table.assign key).release table.nextId = table := by
  obtain ⟨houtgoing, -⟩ := h.release key
  calc (table.assign key).release table.nextId
      = { table with outgoing := ((table.assign key).release table.nextId).outgoing } := rfl
    _ = table := by rw [houtgoing]

theorem SameOutgoing.idOf? {after : CacheTable A item} (h : table.SameOutgoing after)
    (key : A.ObjectKey item) : after.idOf? key = table.idOf? key := by
  unfold CacheTable.idOf?
  rw [h.outgoing]

theorem SameOutgoing.counted {after : CacheTable A item} (h : table.SameOutgoing after)
    (hcounted : table.Counted) : after.Counted := by
  unfold Counted
  rw [h.outgoing, h.nextId]
  exact hcounted

end CacheTable

/-! ### The invariant -/

section Invariant

open Assignment

/-- The sender knows the ids that were given out. -/
structure Books (caches : List (AnyCache A)) (log : List (Assignment A)) (sender : CacheStore A) :
    Prop where
  counted : ∀ cache ∈ caches, (cache.2.table sender).Counted
  room : ∀ cache ∈ caches, (cache.2.table sender).nextId ≤ cache.2.maxEntries.toNat
  logged : ∀ entry ∈ log, ⟨entry.item, entry.cache⟩ ∈ caches ∧
    (entry.cache.table sender).idOf? (entry.cache.codec.keyOf entry.object) = some entry.id
  named : ∀ cache ∈ caches, ∀ {key : A.ObjectKey cache.1} {id : Nat},
    (cache.2.table sender).idOf? key = some id → ∃ object behind,
      first? log cache.2.slot id = some ⟨cache.1, cache.2, object, id, behind⟩ ∧
        cache.2.codec.keyOf object = key

/-- Every id was put when it was first given out. -/
structure Mail (caches : List (AnyCache A)) (log : List (Assignment A)) (posted : List Posted) :
    Prop where
  bounded : ∀ entry ∈ log, entry.behind ≤ posted.length
  earliest : ∀ entry ∈ log, ∀ found, first? log entry.cache.slot entry.id = some found →
    found.behind ≤ entry.behind
  /-- The put was the last message queued when the id was first given out. -/
  put : ∀ {slot id : Nat} {found : Assignment A}, first? log slot id = some found →
    ∃ place message, found.behind = place + 1 ∧ posted[place]? = some message ∧
      message.Puts found.cache found.object found.id
  /-- There are no other messages to the endpoints of the caches. -/
  only : ∀ cache ∈ caches, ∀ {place : Nat} {message : Posted}, posted[place]? = some message →
    ¬ message.IsAnnounce → message.path.getLast? = some cache.2.endpoint.index → ∃ object id,
      first? log cache.2.slot id = some ⟨cache.1, cache.2, object, id, place + 1⟩

/-- The receiver holds the objects of the puts that have come through. -/
structure Shelf (caches : List (AnyCache A)) (log : List (Assignment A)) (delivered : Nat)
    (receiver : CacheStore A) : Prop where
  opens : ∀ cache ∈ caches, receiver.Opens cache.2.slot cache.1
  held : ∀ cache ∈ caches, ∀ {id : Nat} {object : A.Object cache.1},
    (cache.2.table receiver).object? id = some object ↔ ∃ behind,
      first? log cache.2.slot id = some ⟨cache.1, cache.2, object, id, behind⟩ ∧ behind ≤ delivered

/-- The caches of the sender, what it has queued, how much of it has come through, and the caches
of the receiver. -/
structure Ledger (caches : List (AnyCache A)) (log : List (Assignment A)) (sender : CacheStore A)
    (posted : List Posted) (delivered : Nat) (receiver : CacheStore A) : Prop where
  books : Books caches log sender
  mail : Mail caches log posted
  shelf : Shelf caches log delivered receiver

variable {tree : Tree A} {caches : List (AnyCache A)} {log : List (Assignment A)}
  {sender receiver after : CacheStore A} {posted fresh : List Posted} {delivered : Nat}

theorem Ledger.start (caches : List (AnyCache A)) : Ledger caches [] .empty [] 0 .empty where
  books :=
    { counted := fun _ _ => CacheTable.counted_empty
      room := fun _ _ => Nat.zero_le _
      logged := nofun
      named := nofun }
  mail :=
    { bounded := nofun
      earliest := nofun
      put := nofun
      only := nofun }
  shelf :=
    { opens := nofun
      held := fun _ _ _ _ => ⟨nofun, nofun⟩ }

/-! No id is given out. -/

theorem Books.keep (h : Books caches log sender)
    (hsame : ∀ cache ∈ caches, (cache.2.table sender).SameOutgoing (cache.2.table after)) :
    Books caches log after where
  counted cache hcache := (hsame cache hcache).counted (h.counted cache hcache)
  room cache hcache := (hsame cache hcache).nextId ▸ h.room cache hcache
  logged entry hentry := by
    obtain ⟨hcache, hid⟩ := h.logged entry hentry
    exact ⟨hcache, ((hsame _ hcache).idOf? _).trans hid⟩
  named cache hcache _ _ hid := by
    rw [(hsame cache hcache).idOf?] at hid
    exact h.named cache hcache hid

/-- Messages that are no puts are queued. -/
theorem Mail.post (h : Mail caches log posted)
    (hfresh : ∀ message ∈ fresh, ¬ message.IsAnnounce → ∀ cache ∈ caches,
      message.path.getLast? ≠ some cache.2.endpoint.index) : Mail caches log (posted ++ fresh) where
  bounded entry hentry := by
    rw [List.length_append]
    exact Nat.le_add_right_of_le (h.bounded entry hentry)
  earliest := h.earliest
  put hfirst := by
    obtain ⟨place, message, hbehind, hplace, hputs⟩ := h.put hfirst
    have hlt := (List.getElem?_eq_some_iff.mp hplace).1
    exact ⟨place, message, hbehind, (List.getElem?_append_left hlt).trans hplace, hputs⟩
  only cache hcache place message hplace hordinary hends := by
    by_cases hold : place < posted.length
    · rw [List.getElem?_append_left hold] at hplace
      exact h.only cache hcache hplace hordinary hends
    · rw [List.getElem?_append_right (Nat.le_of_not_lt hold)] at hplace
      exact absurd hends (hfresh message (List.mem_of_getElem? hplace) hordinary cache hcache)

/-! An id is given out again. -/

section Again

variable {entry found : Assignment A}

theorem Books.again (h : Books caches log sender)
    (hentry : ⟨entry.item, entry.cache⟩ ∈ caches)
    (hid : (entry.cache.table sender).idOf? (entry.cache.codec.keyOf entry.object) = some entry.id)
    (hfound : first? log entry.cache.slot entry.id = some found) :
    Books caches (log ++ [entry]) sender where
  counted := h.counted
  room := h.room
  logged other hother := by
    rcases List.mem_append.mp hother with hold | hlast
    · exact h.logged other hold
    · rw [List.mem_singleton.mp hlast]
      exact ⟨hentry, hid⟩
  named := by
    rw [first?_again hfound]
    exact h.named

theorem Mail.again (h : Mail caches log posted) (hbehind : entry.behind = posted.length)
    (hfound : first? log entry.cache.slot entry.id = some found) :
    Mail caches (log ++ [entry]) posted where
  bounded other hother := by
    rcases List.mem_append.mp hother with hold | hlast
    · exact h.bounded other hold
    · rw [List.mem_singleton.mp hlast, hbehind]
  earliest other hother known hknown := by
    rw [first?_again hfound] at hknown
    rcases List.mem_append.mp hother with hold | hlast
    · exact h.earliest other hold known hknown
    · rw [List.mem_singleton.mp hlast, hbehind]
      exact h.bounded known (first?_some hknown).1
  put := by
    rw [first?_again hfound]
    exact h.put
  only := by
    rw [first?_again hfound]
    exact h.only

/-- **An id that was given out before is given out again.** -/
theorem Ledger.again (h : Ledger caches log sender posted delivered receiver)
    (hentry : ⟨entry.item, entry.cache⟩ ∈ caches)
    (hid : (entry.cache.table sender).idOf? (entry.cache.codec.keyOf entry.object) = some entry.id)
    (hbehind : entry.behind = posted.length) :
    Ledger caches (log ++ [entry]) sender posted delivered receiver := by
  obtain ⟨_, _, hfound, -⟩ := h.books.named _ hentry hid
  refine ⟨h.books.again hentry hid hfound, h.mail.again hbehind hfound, h.shelf.opens, ?_⟩
  rw [first?_again hfound]
  exact h.shelf.held

end Again

/-! A new id is given out. -/

section Give

variable {cache : AnyCache A} {object : A.Object cache.1} {behind : Nat}
  {Q : Callback A Unit → Prop}

/-- The next id of a cache was not given out yet. -/
theorem Books.free (h : Books caches log sender) (hstock : tree.StockOf Q caches)
    (hcache : cache ∈ caches) :
    first? log cache.2.slot (cache.2.table sender).nextId = none := by
  cases hfirst : first? log cache.2.slot (cache.2.table sender).nextId with
  | none => rfl
  | some found =>
      exfalso
      obtain ⟨hmem, hslot, hid⟩ := first?_some hfirst
      obtain ⟨hfound, hknown⟩ := h.logged found hmem
      obtain ⟨item, same, held, number, behind⟩ := found
      obtain rfl := hstock.slots _ hcache _ hfound hslot
      have hlt := (h.counted _ hcache).lt hknown
      exact absurd hid (Nat.ne_of_gt hlt)

/-- A table that was rewritten is found in its own place, the others are found as they were. -/
theorem table_rewritten (hstock : tree.StockOf Q caches) (hcache : cache ∈ caches)
    {table : CacheTable A cache.1} (h : sender.Rewrites after cache.2.slot table) :
    cache.2.table after = table ∧
      ∀ one ∈ caches, one ≠ cache → one.2.table after = one.2.table sender := by
  refine ⟨h.self, fun one hone hne => h.others _ _ fun hslot => ?_⟩
  exact absurd (hstock.slots one hone cache hcache hslot) hne

theorem Books.give (h : Books caches log sender) (hstock : tree.StockOf Q caches)
    (hcache : cache ∈ caches)
    (hnew : (cache.2.table sender).idOf? (cache.2.codec.keyOf object) = none)
    (hroom : (cache.2.table sender).nextId < cache.2.maxEntries.toNat)
    (hcaches : sender.Rewrites after cache.2.slot
      ((cache.2.table sender).assign (cache.2.codec.keyOf object))) (behind : Nat) :
    Books caches (log ++ [⟨cache.1, cache.2, object, (cache.2.table sender).nextId, behind⟩])
      after := by
  obtain ⟨hself, hothers⟩ := table_rewritten hstock hcache hcaches
  constructor
  case counted =>
    intro one hone
    by_cases hsame : one = cache
    · subst hsame
      rw [hself]
      exact (h.counted one hone).assign _
    · rw [hothers one hone hsame]
      exact h.counted one hone
  case room =>
    intro one hone
    by_cases hsame : one = cache
    · subst hsame
      rw [hself]
      exact hroom
    · rw [hothers one hone hsame]
      exact h.room one hone
  case logged =>
    intro other hother
    rcases List.mem_append.mp hother with hold | hlast
    · obtain ⟨hmem, hid⟩ := h.logged other hold
      refine ⟨hmem, ?_⟩
      by_cases hsame : ⟨other.item, other.cache⟩ = cache
      · subst hsame
        rw [hself, CacheTable.idOf?_assign, hid, Option.some_or]
      · rw [hothers _ hmem hsame, hid]
    · rw [List.mem_singleton.mp hlast]
      refine ⟨hcache, ?_⟩
      rw [hself, CacheTable.idOf?_assign, hnew, Option.none_or, if_pos rfl]
  case named =>
    intro one hone key id hid
    by_cases hsame : one = cache
    · subst hsame
      rw [hself, CacheTable.idOf?_assign] at hid
      cases hold : (one.2.table sender).idOf? key with
      | some known =>
          rw [hold, Option.some_or] at hid
          cases hid
          obtain ⟨found, place, hfound, hkey⟩ := h.named one hone hold
          exact ⟨found, place, first?_append hfound _, hkey⟩
      | none =>
          rw [hold, Option.none_or] at hid
          by_cases hkey : key = one.2.codec.keyOf object
          · rw [if_pos hkey] at hid
            cases hid
            exact ⟨object, behind, first?_new (h.free hstock hone), hkey.symm⟩
          · rw [if_neg hkey] at hid
            cases hid
    · rw [hothers one hone hsame] at hid
      obtain ⟨found, place, hfound, hkey⟩ := h.named one hone hid
      exact ⟨found, place, first?_append hfound _, hkey⟩

/-- The put of a new id is queued behind at most an announce. -/
theorem Mail.give (h : Mail caches log posted) (hstock : tree.Stock caches)
    (hcache : cache ∈ caches) {id : Nat} (hfree : first? log cache.2.slot id = none)
    {lead : List Posted} (hlead : ∀ message ∈ lead, message.IsAnnounce) {message : Posted}
    (hputs : message.Puts cache.2 object id) :
    Mail caches (log ++ [⟨cache.1, cache.2, object, id, (posted ++ lead).length + 1⟩])
      (posted ++ lead ++ [message]) := by
  have hfirst : first? (log ++ [⟨cache.1, cache.2, object, id, (posted ++ lead).length + 1⟩])
      cache.2.slot id = some ⟨cache.1, cache.2, object, id, (posted ++ lead).length + 1⟩ :=
    first?_new hfree
  have hlength : (posted ++ lead ++ [message]).length = (posted ++ lead).length + 1 :=
    List.length_append
  have hled : Mail caches log (posted ++ lead) :=
    h.post fun other hother hordinary => absurd (hlead other hother) hordinary
  constructor
  case bounded =>
    intro other hother
    rw [hlength]
    rcases List.mem_append.mp hother with hold | hlast
    · exact Nat.le_succ_of_le (hled.bounded other hold)
    · rw [List.mem_singleton.mp hlast]
  case earliest =>
    intro other hother found hfound
    rcases List.mem_append.mp hother with hold | hlast
    · obtain ⟨known, hknown⟩ := first?_of_mem hold
      cases (first?_append hknown _).symm.trans hfound
      exact h.earliest other hold _ hknown
    · obtain rfl := List.mem_singleton.mp hlast
      cases hfirst.symm.trans hfound
      exact Nat.le_refl _
  case put =>
    intro slot other found hfound
    rcases first?_cases hfound with hold | rfl
    · obtain ⟨place, known, hbehind, hplace, hknown⟩ := hled.put hold
      have hlt := (List.getElem?_eq_some_iff.mp hplace).1
      exact ⟨place, known, hbehind, (List.getElem?_append_left hlt).trans hplace, hknown⟩
    · exact ⟨(posted ++ lead).length, message, rfl, List.getElem?_concat_length, hputs⟩
  case only =>
    intro one hone place other hplace hordinary hends
    rcases Nat.lt_trichotomy place (posted ++ lead).length with hlt | rfl | hgt
    · rw [List.getElem?_append_left hlt] at hplace
      obtain ⟨found, known, hknown⟩ := hled.only one hone hplace hordinary hends
      exact ⟨found, known, first?_append hknown _⟩
    · rw [List.getElem?_concat_length] at hplace
      cases hplace
      have hindex := Option.some.inj (hends.symm.trans hputs.ends)
      obtain rfl := hstock.endpoints one hone cache hcache hindex
      exact ⟨object, id, hfirst⟩
    · rw [List.getElem?_eq_none (by rw [hlength]; omega)] at hplace
      cases hplace

/-- The put of a new id has not come through. -/
theorem Shelf.give (h : Shelf caches log delivered receiver) {entry : Assignment A}
    (hbehind : delivered < entry.behind) : Shelf caches (log ++ [entry]) delivered receiver where
  opens := h.opens
  held one hone id found := by
    rw [h.held one hone]
    constructor
    · rintro ⟨place, hknown, hcame⟩
      exact ⟨place, first?_append hknown _, hcame⟩
    · rintro ⟨place, hknown, hcame⟩
      rcases first?_cases hknown with hold | rfl
      · exact ⟨place, hold, hcame⟩
      · exact absurd hcame (Nat.not_le.mpr hbehind)

/-- **A new id is given out and its put is queued**, behind at most an announce. -/
theorem Ledger.give (h : Ledger caches log sender posted delivered receiver)
    (hstock : tree.Stock caches) (hdelivered : delivered ≤ posted.length)
    (hcache : cache ∈ caches)
    (hnew : (cache.2.table sender).idOf? (cache.2.codec.keyOf object) = none)
    (hroom : (cache.2.table sender).nextId < cache.2.maxEntries.toNat)
    (hcaches : sender.Rewrites after cache.2.slot
      ((cache.2.table sender).assign (cache.2.codec.keyOf object)))
    {lead : List Posted} (hlead : ∀ message ∈ lead, message.IsAnnounce) {message : Posted}
    (hputs : message.Puts cache.2 object (cache.2.table sender).nextId) :
    Ledger caches (log ++ [⟨cache.1, cache.2, object, (cache.2.table sender).nextId,
      (posted ++ lead).length + 1⟩]) after (posted ++ lead ++ [message]) delivered receiver where
  books := h.books.give hstock hcache hnew hroom hcaches _
  mail := h.mail.give hstock hcache (h.books.free hstock hcache) hlead hputs
  shelf := by
    refine h.shelf.give (Nat.lt_succ_of_le ?_)
    rw [List.length_append]
    exact Nat.le_add_right_of_le hdelivered

end Give

/-! A message comes through. -/

/-- The receiver learns nothing from the sender. -/
theorem Shelf.stay (h : Shelf caches log delivered receiver)
    (hsame : ∀ cache ∈ caches, (cache.2.table receiver).SameIncoming (cache.2.table after))
    (hopens : ∀ cache ∈ caches, after.Opens cache.2.slot cache.1) :
    Shelf caches log delivered after where
  opens := hopens
  held cache hcache id object := by
    have hincoming : (cache.2.table after).incoming = (cache.2.table receiver).incoming :=
      hsame cache hcache
    rw [← h.held cache hcache]
    unfold CacheTable.object?
    rw [hincoming]

/-- **A message comes through that is no put.** -/
theorem Ledger.pass (h : Ledger caches log sender posted delivered receiver) {message : Posted}
    (hnext : posted[delivered]? = some message)
    (hother : message.IsAnnounce ∨ ∀ cache ∈ caches,
      message.path.getLast? ≠ some cache.2.endpoint.index) :
    Ledger caches log sender posted (delivered + 1) receiver := by
  refine ⟨h.books, h.mail, h.shelf.opens, ?_⟩
  intro cache hcache id object
  rw [h.shelf.held cache hcache]
  constructor
  · rintro ⟨behind, hfirst, hcame⟩
    exact ⟨behind, hfirst, Nat.le_succ_of_le hcame⟩
  · rintro ⟨behind, hfirst, hcame⟩
    refine ⟨behind, hfirst, ?_⟩
    rcases Nat.lt_or_eq_of_le hcame with hlt | rfl
    · exact Nat.le_of_lt_succ hlt
    · obtain ⟨place, same, hbehind, hplace, hputs⟩ := h.mail.put hfirst
      cases Nat.succ.inj hbehind
      cases hnext.symm.trans hplace
      rcases hother with hannounce | hends
      · exact absurd hannounce hputs.ordinary
      · exact absurd hputs.ends (hends cache hcache)

/-- The ids that were given out fit their field, and are in range for the peer. -/
theorem Books.id_range (h : Books caches log sender) {slot id : Nat} {entry : Assignment A}
    (hfirst : first? log slot id = some entry) : entry.id < entry.cache.maxEntries.toNat := by
  obtain ⟨hcache, hid⟩ := h.logged entry (first?_some hfirst).1
  exact Nat.lt_of_lt_of_le ((h.counted _ hcache).lt hid) (h.room _ hcache)

section Take

variable {cache : AnyCache A} {object : A.Object cache.1} {id : Nat} {message : Posted}

/-- The id of the next put is free at the receiver. -/
theorem Shelf.free (h : Shelf caches log delivered receiver) (hcache : cache ∈ caches)
    (hfirst : first? log cache.2.slot id
      = some ⟨cache.1, cache.2, object, id, delivered + 1⟩) :
    (cache.2.table receiver).object? id = none := by
  cases hheld : (cache.2.table receiver).object? id with
  | none => rfl
  | some found =>
      obtain ⟨behind, hsame, hcame⟩ := (h.held cache hcache).mp hheld
      cases hfirst.symm.trans hsame
      exact absurd hcame (Nat.not_succ_le_self delivered)

/-- What was put by one message is one entry. -/
theorem Ledger.put_unique (h : Ledger caches log sender posted delivered receiver)
    (hstock : tree.Stock caches) {slot another other : Nat} {one two : Assignment A}
    (hone : first? log slot id = some one) (htwo : first? log another other = some two)
    (hbehind : one.behind = two.behind) (env : A.Env) : one = two := by
  obtain ⟨place, message, hplace, hmessage, hputs⟩ := h.mail.put hone
  obtain ⟨place', message', hplace', hmessage', hputs'⟩ := h.mail.put htwo
  have hsame : place = place' := by omega
  subst hsame
  cases hmessage.symm.trans hmessage'
  obtain ⟨hcache, -⟩ := h.books.logged one (first?_some hone).1
  obtain ⟨hcache', -⟩ := h.books.logged two (first?_some htwo).1
  have hrange := Nat.lt_trans (h.books.id_range hone) one.cache.maxEntries.toNat_lt
  have hrange' := Nat.lt_trans (h.books.id_range htwo) two.cache.maxEntries.toNat_lt
  have hindex := Option.some.inj (hputs.ends.symm.trans hputs'.ends)
  obtain ⟨item, cache, object, number, behind⟩ := one
  obtain ⟨item', cache', object', number', behind'⟩ := two
  cases hstock.endpoints _ hcache _ hcache' hindex
  obtain ⟨hnumber, hobject⟩ := hputs.unique hputs' env
  have hnumber := congrArg UInt32.toNat hnumber
  rw [UInt32.toNat_ofNat_of_lt' hrange, UInt32.toNat_ofNat_of_lt' hrange'] at hnumber
  simp only at hbehind hobject hnumber
  rw [hbehind, hobject, hnumber]

/-- **A put comes through**, and the receiver stores its object. -/
theorem Ledger.take (h : Ledger caches log sender posted delivered receiver)
    (hstock : tree.Stock caches) (hcache : cache ∈ caches) (env : A.Env)
    (hfirst : first? log cache.2.slot id
      = some ⟨cache.1, cache.2, object, id, delivered + 1⟩)
    (hcaches : receiver.Rewrites after cache.2.slot ((cache.2.table receiver).learn id object)) :
    Ledger caches log sender posted (delivered + 1) after := by
  obtain ⟨hself, hothers⟩ := table_rewritten hstock hcache hcaches
  have hfree := h.shelf.free hcache hfirst
  refine ⟨h.books, h.mail, ?_, ?_⟩
  · intro one hone
    refine hcaches.opens _ _ (fun hslot => ?_) (h.shelf.opens one hone)
    rw [hstock.slots one hone cache hcache hslot]
  intro one hone other found
  constructor
  · intro hheld
    by_cases hsame : one = cache
    · subst hsame
      rw [hself] at hheld
      rcases CacheTable.object?_learn_cases hheld with hold | ⟨rfl, rfl⟩
      · obtain ⟨behind, hknown, hcame⟩ := (h.shelf.held one hone).mp hold
        exact ⟨behind, hknown, Nat.le_succ_of_le hcame⟩
      · exact ⟨delivered + 1, hfirst, Nat.le_refl _⟩
    · rw [hothers one hone hsame] at hheld
      obtain ⟨behind, hknown, hcame⟩ := (h.shelf.held one hone).mp hheld
      exact ⟨behind, hknown, Nat.le_succ_of_le hcame⟩
  · rintro ⟨behind, hknown, hcame⟩
    rcases Nat.lt_or_eq_of_le hcame with hlt | rfl
    · have hold := (h.shelf.held one hone).mpr ⟨behind, hknown, Nat.le_of_lt_succ hlt⟩
      by_cases hsame : one = cache
      · subst hsame
        rw [hself]
        exact CacheTable.object?_learn_of_old hold
      · rw [hothers one hone hsame]
        exact hold
    · obtain ⟨item, cache⟩ := cache
      obtain ⟨kind, one⟩ := one
      cases h.put_unique hstock hfirst hknown rfl env
      rw [hself]
      exact CacheTable.object?_learn object hfree

end Take

end Invariant

end PathWire
