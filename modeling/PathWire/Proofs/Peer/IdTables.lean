/-
The two directions of the id tables.

Ids are handed out upwards, so different paths have different ids.  What the peer announces is
stored by position, and a position that was bound stays bound to the same path.
-/
import PathWire.Peer.IdTables
import PathWire.Proofs.Basic

namespace PathWire

namespace IdTables

variable {ids : IdTables} {path : Path} {id : Nat}

/-! ### Outgoing ids -/

theorem peekNext_ok (h : ids.peekNext = .ok id) : id = ids.nextFreeId ∧ id ≤ ids.maxId := by
  unfold peekNext at h
  by_cases hfull : ids.maxId < ids.nextFreeId
  · simp [hfull] at h
  · simp only [if_neg hfull, Except.ok.injEq] at h
    omega

/-- The ids of a table with one more path. -/
theorem outgoing?_commit (ids : IdTables) (path : Path) (id : Nat) (other : Path) :
    (ids.commit path id).outgoing? other = if other = path then some id else ids.outgoing? other :=
  lookup_replace ids.outgoing path id other

/-- Ids are in range, below the next one, and different for different paths. -/
structure Numbered (ids : IdTables) : Prop where
  range : ∀ {path : Path} {id : Nat}, ids.outgoing? path = some id →
    firstAllocatedId ≤ id ∧ id < ids.nextFreeId ∧ id ≤ ids.maxId
  apart : ∀ {path other : Path} {id : Nat}, ids.outgoing? path = some id →
    ids.outgoing? other = some id → path = other
  next : firstAllocatedId ≤ ids.nextFreeId

theorem numbered_new (maxId : Nat) : (new maxId).Numbered where
  range h := by cases h
  apart h _ := by cases h
  next := Nat.le_refl _

/-- An id fits its field, and is not the one of an announce. -/
theorem Numbered.field (h : ids.Numbered) (hfield : ids.maxId < 2 ^ 32)
    (hid : ids.outgoing? path = some id) :
    (UInt32.ofNat id).toNat = id ∧ id < 2 ^ 32 ∧ id ≠ announceTag := by
  obtain ⟨hfirst, -, hmax⟩ := h.range hid
  have hsize : id < 2 ^ 32 := Nat.lt_of_le_of_lt hmax hfield
  have hreserved : announceTag < firstAllocatedId := by decide
  exact ⟨UInt32.toNat_ofNat_of_lt' hsize, hsize, by omega⟩

/-- Handing out the next id keeps the ids different. -/
theorem Numbered.commit (h : ids.Numbered) (hid : ids.peekNext = .ok id) (path : Path) :
    (ids.commit path id).Numbered := by
  obtain ⟨rfl, hmax⟩ := peekNext_ok hid
  constructor
  · intro other given hgiven
    rw [outgoing?_commit] at hgiven
    by_cases hsame : other = path
    · rw [if_pos hsame] at hgiven
      cases hgiven
      exact ⟨h.next, Nat.lt_succ_self _, hmax⟩
    · rw [if_neg hsame] at hgiven
      obtain ⟨hfirst, hbelow, hrange⟩ := h.range hgiven
      exact ⟨hfirst, Nat.lt_succ_of_lt hbelow, hrange⟩
  · intro one other given hone hother
    rw [outgoing?_commit] at hone hother
    by_cases hsame : one = path
    · by_cases hsame' : other = path
      · rw [hsame, hsame']
      · rw [if_pos hsame] at hone
        rw [if_neg hsame'] at hother
        cases hone
        exact absurd (h.range hother).2.1 (Nat.lt_irrefl _)
    · rw [if_neg hsame] at hone
      by_cases hsame' : other = path
      · rw [if_pos hsame'] at hother
        cases hother
        exact absurd (h.range hone).2.1 (Nat.lt_irrefl _)
      · rw [if_neg hsame'] at hother
        exact h.apart hone hother
  · exact Nat.le_succ_of_le h.next

/-- The number of nodes of every path with an id fits its field in an announce. -/
def Announceable (ids : IdTables) : Prop :=
  ∀ (path : Path) (id : Nat), ids.outgoing? path = some id → path.length < 2 ^ 32

/-! ### Incoming ids -/

theorem checkId_ok (hfirst : firstAllocatedId ≤ id) (hmax : id ≤ ids.maxId) :
    ids.checkId id = .ok () := by
  unfold checkId
  rw [if_neg (Nat.not_lt.mpr hfirst), if_neg (Nat.not_lt.mpr hmax)]

/-- The paths of a table with one more id. -/
theorem bound?_bind (ids : IdTables) (id : Nat) (path : ResolvedPath) (other : Nat) :
    (ids.bind id path).bound? other = if other = id then some path else ids.bound? other := by
  unfold bound? bind
  simp only [Array.getElem?_setIfInBounds, Array.size_append, Array.size_replicate]
  by_cases hsame : other = id
  · subst hsame
    have hroom : other < ids.incoming.size + (other + 1 - ids.incoming.size) := by omega
    simp [hroom]
  · rw [if_neg (Ne.symm hsame), if_neg hsame, Array.getElem?_append]
    by_cases hold : other < ids.incoming.size
    · rw [if_pos hold]
    · have hnone : ids.incoming[other]? = none := by simpa using hold
      rw [if_neg hold, hnone, Array.getElem?_replicate]
      by_cases hgrown : other - ids.incoming.size < id + 1 - ids.incoming.size <;> simp [hgrown]

/-- What holds of all bound paths goes on to do so if it holds of the new one. -/
theorem forall_bound_bind {P : ResolvedPath → Prop} {new : ResolvedPath}
    (h : ∀ {id path}, ids.bound? id = some path → P path) (hnew : P new) (place : Nat) {id : Nat}
    {path : ResolvedPath} (hbound : (ids.bind place new).bound? id = some path) : P path := by
  rw [bound?_bind] at hbound
  by_cases hsame : id = place
  · rw [if_pos hsame] at hbound
    cases hbound
    exact hnew
  · rw [if_neg hsame] at hbound
    exact h hbound

/-- An id in range that is not bound yet is bound. -/
theorem register_new {resolved : ResolvedPath} (hfirst : firstAllocatedId ≤ id)
    (hmax : id ≤ ids.maxId) (h : ids.bound? id = none) :
    ids.register id resolved = .ok (resolved, ids.bind id resolved) := by
  unfold register
  rw [Result.bind_ok (checkId_ok hfirst hmax)]
  simp only [h]
  rfl

/-- Binding an id to its path again changes nothing. -/
theorem register_again {resolved existing : ResolvedPath} (hfirst : firstAllocatedId ≤ id)
    (hmax : id ≤ ids.maxId) (h : ids.bound? id = some existing)
    (hsame : existing.path = resolved.path) : ids.register id resolved = .ok (existing, ids) := by
  unfold register
  rw [Result.bind_ok (checkId_ok hfirst hmax)]
  simp only [h, if_pos hsame]
  rfl

/-- An announce only touches the incoming ids. -/
theorem register_frame {resolved registered : ResolvedPath} {after : IdTables}
    (h : ids.register id resolved = .ok (registered, after)) :
    ∃ incoming, after = { ids with incoming } := by
  unfold register at h
  obtain ⟨-, -, h⟩ := Result.of_bind_ok h
  cases hbound : ids.bound? id with
  | none =>
      simp only [hbound] at h
      cases h
      exact ⟨_, rfl⟩
  | some existing =>
      simp only [hbound] at h
      by_cases hsame : existing.path = resolved.path
      · rw [if_pos hsame] at h
        cases h
        exact ⟨ids.incoming, rfl⟩
      · rw [if_neg hsame] at h
        cases h

/-- A bound id in range is found. -/
theorem lookup_bound {resolved : ResolvedPath} (hfirst : firstAllocatedId ≤ id)
    (hmax : id ≤ ids.maxId) (h : ids.bound? id = some resolved) :
    ids.lookup id = .ok resolved := by
  unfold lookup
  rw [Result.bind_ok (checkId_ok hfirst hmax)]
  simp only [h]
  rfl

/-- An id in range that is not bound is unknown. -/
theorem lookup_unbound (hfirst : firstAllocatedId ≤ id) (hmax : id ≤ ids.maxId)
    (h : ids.bound? id = none) : ids.lookup id = .error (.unknownId id) := by
  unfold lookup
  rw [Result.bind_ok (checkId_ok hfirst hmax)]
  simp only [h]
  rfl

end IdTables

end PathWire
