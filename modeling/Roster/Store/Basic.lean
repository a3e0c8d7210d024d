import Roster.Store.Row

/-!
The store: companies, users, groups and memberships.

A table keeps its rows in the order of their numbers, and no two rows share a number or a public
identifier. A membership joins a group and a user by their numbers and says when it was made; memberships
are kept in the order in which they were made.
-/

set_option autoImplicit false

namespace Roster

/-- A company owns users and groups and authenticates with a name and a token. -/
structure Company where
  id : Int
  subdomain : String
  token : String
  deriving DecidableEq, Repr

structure Table (k : Kind) where
  rows : List (Row k)
  ordered : rows.Pairwise fun a b => a.id < b.id
  distinct : ∀ a ∈ rows, ∀ b ∈ rows, a.uuid = b.uuid → a.id = b.id

namespace Table

variable {k : Kind}

instance : DecidableEq (Table k) := fun a b =>
  decidable_of_iff (a.rows = b.rows) (by cases a; cases b; simp)

def empty : Table k := ⟨[], .nil, by simp⟩

def find? (t : Table k) (id : Int) : Option (Row k) :=
  t.rows.find? fun r => r.id == id

/-- The table without the row with a number. -/
def erase (t : Table k) (id : Int) : Table k where
  rows := t.rows.filter fun r => r.id != id
  ordered := t.ordered.filter _
  distinct a ha b hb := t.distinct a (List.mem_filter.1 ha).1 b (List.mem_filter.1 hb).1

/-- No row has the number or the public identifier of a new row. -/
def isFree (t : Table k) (r : Row k) : Bool :=
  t.rows.all fun x => x.id != r.id && x.uuid != r.uuid

/-- The rows with a new row in its place. -/
def placed (t : Table k) (r : Row k) : List (Row k) :=
  t.rows.filter (fun x => x.id < r.id) ++ r :: t.rows.filter fun x => r.id < x.id

theorem mem_placed {t : Table k} {r x : Row k} (h : x ∈ t.placed r) : x = r ∨ x ∈ t.rows := by
  simp only [placed, List.mem_append, List.mem_cons, List.mem_filter] at h
  rcases h with h | rfl | h
  · exact .inr h.1
  · exact .inl rfl
  · exact .inr h.1

def insert? (t : Table k) (r : Row k) : Option (Table k) :=
  if h : t.isFree r = true then
    some {
      rows := t.placed r
      ordered := by
        refine List.pairwise_append.2 ⟨t.ordered.filter _, ?_, ?_⟩
        · refine List.pairwise_cons.2 ⟨?_, t.ordered.filter _⟩
          intro x hx
          simpa using (List.mem_filter.1 hx).2
        · intro a ha b hb
          have ha : a.id < r.id := by simpa using (List.mem_filter.1 ha).2
          rcases List.mem_cons.1 hb with rfl | hb
          · exact ha
          · have hb : r.id < b.id := by simpa using (List.mem_filter.1 hb).2
            omega
      distinct := by
        have free : ∀ x ∈ t.rows, x.uuid ≠ r.uuid := by
          intro x hx
          have := List.all_eq_true.1 h x hx
          simp at this
          exact this.2
        intro a ha b hb e
        rcases mem_placed ha with ea | ma <;> rcases mem_placed hb with eb | mb
        · rw [ea, eb]
        · exact absurd (e.symm.trans (by rw [ea])) (free b mb)
        · exact absurd (e.trans (by rw [eb])) (free a ma)
        · exact t.distinct a ma b mb e }
  else none

/-- The table with the row of a number replaced. -/
def replace? (t : Table k) (id : Int) (r : Row k) : Option (Table k) :=
  (t.erase id).insert? r

/-- The number after that of the last row, counted from one. -/
def numberAfter (rows : List (Row k)) : Int :=
  match rows.getLast? with
  | some r => r.id + 1
  | none => 1

/-- The least number from the given one on that is not the number of a row; the rows are in the order of their
numbers. -/
def freeFrom (n : Int) : List (Row k) → Int
  | [] => n
  | r :: rows => freeFrom (if r.id = n then n + 1 else n) rows

/-- The number of the next row: one more than the last, as long as there is one, and the least free one after that. -/
def nextId (t : Table k) : Int :=
  if numberAfter t.rows ≤ Number.maxInt64 then numberAfter t.rows else freeFrom 1 t.rows

end Table

/-- A group has a user as a member since a reading of the clock. The number of a membership is not kept: nothing
refers to it, and it only says the place of the membership in the list of all. -/
structure Membership where
  group : Int
  user : Int
  created : Nat
  deriving DecidableEq, Repr

/-- The whole contents of a directory. -/
structure Store where
  companies : List Company
  users : Table .user
  groups : Table .group
  memberships : List Membership
  deriving DecidableEq

namespace Store

def table (s : Store) : (k : Kind) → Table k
  | .user => s.users
  | .group => s.groups

/-- The store with other rows of a kind. -/
def withTable (s : Store) : (k : Kind) → Table k → Store
  | .user, t => { s with users := t }
  | .group, t => { s with groups := t }

def company? (s : Store) (subdomain : String) : Option Company :=
  s.companies.find? fun c => c.subdomain == subdomain

/-- The company that a name and a token authenticate. -/
def authenticate? (s : Store) (subdomain token : String) : Option Company :=
  (s.company? subdomain).filter fun c => c.token == token

/-- The users in a group, in the order in which they became members. -/
def membersOf (s : Store) (group : Row .group) : List (Row .user) :=
  (s.memberships.filter fun m => m.group == group.id).filterMap fun m => s.users.find? m.user

/-- The numbers of a group and a user are those of a membership. -/
def isMember (s : Store) (group : Row .group) (user : Row .user) : Bool :=
  s.memberships.any fun m => m.group == group.id && m.user == user.id

/-- Makes a user a member of a group, unless it is one. -/
def join (s : Store) (clock : Nat) (group : Row .group) (user : Row .user) : Store :=
  if s.isMember group user then s else { s with memberships := s.memberships ++ [⟨group.id, user.id, clock⟩] }

/-- Makes users members of a group, those left out that are members. -/
def addMembers (s : Store) (clock : Nat) (group : Row .group) (users : List (Row .user)) : Store :=
  users.foldl (fun s u => s.join clock group u) s

def withoutMembers (s : Store) (group : Row .group) (users : List (Row .user)) : Store :=
  { s with
    memberships := s.memberships.filter fun m => !(m.group == group.id && users.any fun u => u.id == m.user) }

/-- The most values that one statement of the store takes. -/
def maxVariables : Nat := 32766

/-- Takes users out of a group. One statement names the group and every user, and one that is listed twice two
times. -/
def removeMembers (s : Store) (group : Row .group) (users : List (Row .user)) : Except Failure Store :=
  if users.length < maxVariables then .ok (s.withoutMembers group users) else .error (.fault .store)

def clearMembers (s : Store) (group : Row .group) : Store :=
  { s with memberships := s.memberships.filter fun m => m.group != group.id }

/-- Takes a user out of all groups, or all users out of a group. -/
def dropMemberships (s : Store) : (k : Kind) → Row k → Store
  | .user, r => { s with memberships := s.memberships.filter fun m => m.user != r.id }
  | .group, r => s.clearMembers r

/-- The store without a row and its memberships. -/
def erase (s : Store) (k : Kind) (r : Row k) : Store :=
  let s := s.dropMemberships k r
  s.withTable k ((s.table k).erase r.id)

end Store

end Roster
