import Mathlib.Data.List.TakeWhile
import Roster.Proofs.CustomAttributes
import Roster.Proofs.NamedMembers
import Roster.Proofs.Sample

/-!
Paths that select members.

A path selects members of a group if it is the name of the members with a filter in brackets behind it, and nothing
more. A line end behind all that is not noticed. Whether the filter can be read is left to its grammar. An operation
that removes members by a path takes out those that the filter selects, or it is refused and takes out nobody.
-/

set_option autoImplicit false

namespace Roster

open Step

/-! ## The grammar of paths -/

namespace BracketPath

variable {path : List Char}

private theorem takeWhile_append_cons {p : Char → Bool} {word : List Char} (hword : ∀ c ∈ word, p c = true) {c : Char}
    (hc : p c = false) (rest : List Char) : (word ++ c :: rest).takeWhile p = word := by
  rw [List.takeWhile_append_of_pos hword, List.takeWhile_cons, hc, if_neg Bool.false_ne_true, List.append_nil]

private theorem dropWhile_append_cons {p : Char → Bool} {word : List Char} (hword : ∀ c ∈ word, p c = true) {c : Char}
    (hc : p c = false) (rest : List Char) : (word ++ c :: rest).dropWhile p = c :: rest := by
  rw [List.dropWhile_append_of_pos hword, List.dropWhile_cons, hc, if_neg Bool.false_ne_true]

/-- What is behind the brackets is a suffix on one line and at most one line end after it. -/
private theorem line_iff {after line : List Char} :
    (after.takeWhile (· != '\n') = line ∧
      ((after.dropWhile (· != '\n')).isEmpty || after.dropWhile (· != '\n') == ['\n']) = true) ↔
    '\n' ∉ line ∧ (after = line ∨ after = line ++ ['\n']) := by
  constructor
  · rintro ⟨rfl, hend⟩
    have hafter : after = after.takeWhile (· != '\n') ++ after.dropWhile (· != '\n') :=
      List.takeWhile_append_dropWhile.symm
    refine ⟨fun hmem => by simpa using List.mem_takeWhile_imp hmem, ?_⟩
    rw [Bool.or_eq_true, List.isEmpty_iff, beq_iff_eq] at hend
    rcases hend with hend | hend
    · rw [hend, List.append_nil] at hafter
      exact .inl hafter
    · rw [hend] at hafter
      exact .inr hafter
  · rintro ⟨hline, hafter⟩
    have hall : ∀ c ∈ line, (c != '\n') = true := fun c hc => bne_iff_ne.2 fun e => hline (e ▸ hc)
    rcases hafter with hafter | hafter <;> rw [hafter]
    · rw [List.takeWhile_eq_self_iff.2 hall, List.dropWhile_eq_nil_iff.2 hall]
      exact ⟨rfl, rfl⟩
    · rw [takeWhile_append_cons hall rfl, dropWhile_append_cons hall rfl]
      exact ⟨rfl, rfl⟩

/-- What a path has to look like: a name, a filter in brackets and a suffix, and at most a line end after them. -/
theorem ofPath?_eq_some_iff {b : BracketPath} :
    ofPath? path = some b ↔
      (b.name ≠ [] ∧ ∀ c ∈ b.name, isBracket c = false) ∧ (∀ c ∈ b.filter, isBracket c = false) ∧
        '\n' ∉ b.suffix ∧
        ∃ after, (after = b.suffix ∨ after = b.suffix ++ ['\n']) ∧
          path = b.name ++ '[' :: (b.filter ++ ']' :: after) := by
  have hplain (s : List Char) : ∀ c ∈ s.takeWhile (fun c => !isBracket c), isBracket c = false :=
    fun c hc => by simpa using List.mem_takeWhile_imp hc
  constructor
  · intro h
    unfold ofPath? at h
    dsimp only at h
    split at h
    next inner hinner =>
      split at h
      next after hafter =>
        split at h
        · cases h
        next hname =>
          split at h
          next hend =>
            cases h
            obtain ⟨hsuffix, hafter'⟩ := line_iff.1 ⟨rfl, hend⟩
            refine ⟨⟨fun e => hname (List.isEmpty_iff.2 e), hplain path⟩, hplain inner, hsuffix, after, hafter', ?_⟩
            dsimp only
            rw [← hafter, List.takeWhile_append_dropWhile, ← hinner, List.takeWhile_append_dropWhile]
          next => cases h
      next => cases h
    next => cases h
  · rintro ⟨⟨hname, hnameplain⟩, hfilter, hsuffix, after, hafter, rfl⟩
    obtain ⟨htake, hend⟩ := line_iff.2 ⟨hsuffix, hafter⟩
    have hkeep {word : List Char} (hword : ∀ c ∈ word, isBracket c = false) :
        ∀ c ∈ word, (!isBracket c) = true := fun c hc => by rw [hword c hc, Bool.not_false]
    have hnonempty : ¬b.name.isEmpty = true := mt List.isEmpty_iff.1 hname
    have hopen : (!isBracket '[') = false := rfl
    have hclose : (!isBracket ']') = false := rfl
    simp only [ofPath?, dropWhile_append_cons (hkeep hnameplain) hopen,
      takeWhile_append_cons (hkeep hnameplain) hopen, dropWhile_append_cons (hkeep hfilter) hclose,
      takeWhile_append_cons (hkeep hfilter) hclose, htake]
    rw [if_neg hnonempty, if_pos hend]

end BracketPath

/-- The path is that of members that a filter selects; a line end behind it does not count. -/
def SelectsMembers (path : Option String) (filter : String) : Prop :=
  (∀ c ∈ filter.toList, BracketPath.isBracket c = false) ∧
    (path = some ("members[" ++ filter ++ "]") ∨ path = some ("members[" ++ filter ++ "]\n"))

instance (path : Option String) (filter : String) : Decidable (SelectsMembers path filter) :=
  have := List.decidableBAll (fun c => BracketPath.isBracket c = false) filter.toList
  inferInstanceAs (Decidable (_ ∧ (_ ∨ _)))

/-- The paths that select members are read as brackets behind the name of the members. -/
private theorem ofPath?_of_selectsMembers {path : Option String} {filter : String} (h : SelectsMembers path filter) :
    BracketPath.ofPath? (path.getD "").toList = some ⟨"members".toList, filter.toList, []⟩ := by
  obtain ⟨hfilter, hpath⟩ := h
  have hname : ∀ c ∈ "members".toList, BracketPath.isBracket c = false := by simp [BracketPath.isBracket]
  have hnonempty : "members".toList ≠ [] := by simp
  refine BracketPath.ofPath?_eq_some_iff.2 ⟨⟨hnonempty, hname⟩, hfilter, List.not_mem_nil, ?_⟩
  rcases hpath with rfl | rfl
  · refine ⟨[], .inl rfl, ?_⟩
    simp [String.toList_append]
  · refine ⟨['\n'], .inr rfl, ?_⟩
    simp [String.toList_append]

private theorem selectsMembers_of_ofPath? {path : Option String} {b : BracketPath}
    (h : BracketPath.ofPath? (path.getD "").toList = some b) (hname : b.name = "members".toList)
    (hsuffix : b.suffix = []) : SelectsMembers path (String.ofList b.filter) := by
  obtain ⟨-, hfilter, -, after, hafter, hpath⟩ := BracketPath.ofPath?_eq_some_iff.1 h
  rw [hname] at hpath
  rw [hsuffix, List.nil_append] at hafter
  refine ⟨by rwa [String.toList_ofList], ?_⟩
  cases path with
  | none => exact absurd hpath (by simp)
  | some p =>
    rw [Option.some.injEq, Option.some.injEq, ← String.toList_inj, ← String.toList_inj]
    rw [Option.getD_some] at hpath
    refine hafter.imp ?_ ?_
    · rintro rfl
      rw [hpath]
      simp [String.toList_append]
    · rintro rfl
      rw [hpath]
      simp [String.toList_append]

/-- A filter for members is read from the path that selects by it, and from no other path. -/
theorem memberFilter_eq (c : Config) (path : Option String) :
    (∀ filter, SelectsMembers path filter → memberFilter c path =
      (Filter.parse c.memberAttributes filter).mapError .patchFilter) ∧
    ((∀ filter, ¬SelectsMembers path filter) → memberFilter c path = .error (.patchPath path)) := by
  constructor
  · intro filter hselects
    rw [memberFilter, ofPath?_of_selectsMembers hselects]
    dsimp only
    rw [bne_self_eq_false, List.isEmpty_nil, Bool.not_true, Bool.or_false, if_neg Bool.false_ne_true,
      String.ofList_toList]
    cases Filter.parse c.memberAttributes filter <;> rfl
  · intro hother
    rw [memberFilter]
    split
    next b hb =>
      split
      next => rfl
      next hmembers =>
        rw [Bool.or_eq_true, not_or, bne_iff_ne, ne_eq, not_not, Bool.not_eq_true', Bool.not_eq_false,
          List.isEmpty_iff] at hmembers
        exact absurd (selectsMembers_of_ofPath? hb hmembers.1 hmembers.2) (hother _)
    next => rfl

/-! ## Taking members out -/

section Remove

variable (ctx : Context) (owner : Company) (group : Row .group) {o : PatchOperation} (hname : o.name = "remove")
  (hpath : o.path ≠ some "members") (σ : Session)

include hname hpath

private theorem applyOperation_remove :
    applyOperation ctx owner .group group o = do
      (do
        let filter ← check (memberFilter ctx.config o.path)
        let users ← look fun s => s.matchingMembers owner group filter
        removeUsers group users)
      return group := by
  have hmembers : ¬(o.path == some "members") = true := by rwa [beq_iff_eq]
  have hremove : applyOperation ctx owner .group group o = do
      removeListed ctx owner group o
      return group := by
    rw [applyOperation, hname]
    rfl
  rw [hremove, removeListed, if_neg hmembers]

/-- A path that gives no filter refuses the operation. -/
private theorem exec_remove_refused {cause : Error} (hfilter : memberFilter ctx.config o.path = .error cause) :
    exec (applyOperation ctx owner .group group o) σ = (.error (.refused cause), σ) := by
  rw [applyOperation_remove ctx owner group hname hpath, hfilter]
  rfl

/-- With the filter that a path gives, members are looked for and taken out. -/
private theorem exec_remove_read {e : Filter.Expression} (hfilter : memberFilter ctx.config o.path = .ok e) :
    exec (applyOperation ctx owner .group group o) σ =
      match (σ.current.matchingMembers owner group e).bind fun users => σ.current.removeMembers group users with
      | .ok s' => (.ok group, { σ with current := s' })
      | .error failure => (.error failure, σ) := by
  rw [applyOperation_remove ctx owner group hname hpath, hfilter]
  cases hfound : σ.current.matchingMembers owner group e with
  | error failure =>
    have hlook : exec (look fun s => s.matchingMembers owner group e) σ = (.error failure, σ) := by
      rw [exec_look, hfound]
    exact exec_bind_error ((exec_bind_ok rfl).trans (exec_bind_error hlook))
  | ok users =>
    have hlook : exec (look fun s => s.matchingMembers owner group e) σ = (.ok users, σ) := by
      rw [exec_look, hfound]
    have hremove : exec (removeUsers group users) σ =
        match σ.current.removeMembers group users with
        | .ok s' => (.ok (), { σ with current := s' })
        | .error failure => (.error failure, σ) := by
      rw [removeUsers, exec_change]
      cases σ.current.removeMembers group users <;> rfl
    dsimp only [Except.bind]
    cases hremoved : σ.current.removeMembers group users with
    | error failure =>
      rw [hremoved] at hremove
      exact exec_bind_error ((exec_bind_ok rfl).trans ((exec_bind_ok hlook).trans hremove))
    | ok s' =>
      rw [hremoved] at hremove
      exact exec_bind_ok ((exec_bind_ok rfl).trans ((exec_bind_ok hlook).trans hremove))

end Remove

/-- The users of a company in a group whom a filter selects. -/
def Store.selectedMembers (s : Store) (owner : Company) (group : Row .group) (e : Filter.Expression) :
    List (Row .user) :=
  (s.owned .user owner).filter fun u => e.selects u.uuid && s.isMember group u

/-- Members that a filter selects are taken out, unless its pattern is too long or they are too many for one
statement. -/
theorem Store.matchingMembers_bind_removeMembers (s : Store) (owner : Company) (group : Row .group)
    {e : Filter.Expression} (hcolumn : e.column = "uuid") :
    ((s.matchingMembers owner group e).bind fun users => s.removeMembers group users) =
      if e.isTooLong && !(s.owned .user owner).isEmpty || maxVariables ≤ (s.selectedMembers owner group e).length then
        .error (.fault .store)
      else .ok (s.withoutMembers group ((s.owned .user owner).filter fun u => e.selects u.uuid)) := by
  have hempty : ((s.owned .user owner).map Row.uuid).isEmpty = (s.owned .user owner).isEmpty := by
    cases s.owned .user owner <;> rfl
  have hmember (u : Row .user) (hu : u ∈ s.owned .user owner) :
      ((s.membersOf group).any fun m => m.id == u.id) = s.isMember group u := by
    rw [Bool.eq_iff_iff, List.any_eq_true, isMember_iff]
    constructor
    · rintro ⟨m, hm, hid⟩
      rw [← beq_iff_eq.1 hid]
      exact (mem_membersOf.1 hm).2
    · intro hnumber
      exact ⟨u, mem_membersOf.2 ⟨mem_rows_of_owned hu, hnumber⟩, beq_self_eq_true u.id⟩
  have hlength : ((sortRows [(.id, false)] ((s.owned .user owner).filter fun u => e.selects u.uuid)).filter fun u =>
      (s.membersOf group).any fun m => m.id == u.id).length = (s.selectedMembers owner group e).length := by
    rw [sortRows, ((List.mergeSort_perm _ _).filter _).length_eq, List.filter_filter, selectedMembers]
    congr 1
    refine List.filter_congr fun u hu => ?_
    rw [hmember u hu, Bool.and_comm]
  rw [matchingMembers_eq hcolumn, hempty]
  cases e.isTooLong && !(s.owned .user owner).isEmpty with
  | true => rfl
  | false =>
    dsimp only [Except.bind]
    rw [Bool.false_or, if_neg Bool.false_ne_true]
    dsimp only
    rw [removeMembers, hlength, s.withoutMembers_found owner group fun u => e.selects u.uuid]
    by_cases hfew : (s.selectedMembers owner group e).length < maxVariables
    · rw [if_pos hfew, if_neg]
      simpa using hfew
    · rw [if_neg hfew, if_pos]
      simpa using hfew

/-- An operation that removes members by a path takes out those users of the company whom the filter in the path
selects, where the path selects members and the filter can be read. Otherwise it is refused for the filter or for the
path, and nothing is changed. Only a filter with a pattern that the store does not try on anyone, or one that selects
more members than one statement takes out, is neither. -/
theorem removes_or_refuses {s : Settings} {c : Config} (hb : Config.build s = .ok c) (clock : Nat) (owner : Company)
    (group : Row .group) {o : PatchOperation} (hname : o.name = "remove") (hpath : o.path ≠ some "members")
    (σ : Session) :
    (∀ filter, SelectsMembers o.path filter →
      match Filter.parse c.memberAttributes filter with
      | .error cause =>
        exec (applyOperation ⟨c, clock⟩ owner .group group o) σ = (.error (.refused (.patchFilter cause)), σ)
      | .ok e =>
        if e.isTooLong && !(σ.current.owned .user owner).isEmpty ||
            Store.maxVariables ≤ (σ.current.selectedMembers owner group e).length then
          exec (applyOperation ⟨c, clock⟩ owner .group group o) σ = (.error (.fault .store), σ)
        else
          ∃ s', exec (applyOperation ⟨c, clock⟩ owner .group group o) σ = (.ok group, { σ with current := s' }) ∧
            s' = σ.current.withoutMembers group ((σ.current.owned .user owner).filter fun u => e.selects u.uuid) ∧
            s'.memberUuids group = (σ.current.memberUuids group).filter fun uuid =>
              !(((σ.current.owned .user owner).map Row.uuid).contains uuid && e.selects uuid)) ∧
    ((∀ filter, ¬SelectsMembers o.path filter) →
      exec (applyOperation ⟨c, clock⟩ owner .group group o) σ = (.error (.refused (.patchPath o.path)), σ)) ∧
    (∀ cause, (Error.patchFilter cause).status = 422 ∧ (Error.patchFilter cause).scimType = some "invalidFilter" ∧
      (Error.patchFilter cause).message = "Invalid PATCH request. " ++ cause.message) ∧
    (Error.patchPath o.path).status = 422 ∧ (Error.patchPath o.path).scimType = some "invalidPath" := by
  obtain ⟨hselects, hother⟩ := memberFilter_eq c o.path
  refine ⟨fun filter hfilter => ?_, fun hnone => ?_, fun _ => ⟨rfl, rfl, rfl⟩, rfl, rfl⟩
  · have hread := hselects filter hfilter
    cases hparse : Filter.parse c.memberAttributes filter with
    | error cause =>
      rw [hparse] at hread
      exact exec_remove_refused ⟨c, clock⟩ owner group hname hpath σ hread
    | ok e =>
      rw [hparse] at hread
      -- The configuration may have attributes fixed for users; they are no part of what a path is read by.
      have hplain : memberFilter c.plain o.path = .ok e := hread
      have hremoved := σ.current.matchingMembers_bind_removeMembers owner group
        (column_of_memberFilter (Config.isStandard_plain hb) hplain)
      dsimp only
      rw [exec_remove_read ⟨c, clock⟩ owner group hname hpath σ hread, hremoved]
      split
      · rfl
      · refine ⟨_, rfl, rfl, ?_⟩
        rw [Store.memberUuids_withoutMembers fun u hu => Store.mem_rows_of_owned (List.mem_filter.1 hu).1]
        refine List.filter_congr fun uuid _ => congrArg not ?_
        change ((List.filter (e.selects ∘ Row.uuid) _).map Row.uuid).contains uuid = _
        rw [← List.filter_map, Bool.eq_iff_iff, Bool.and_eq_true, List.contains_iff_mem, List.contains_iff_mem,
          List.mem_filter]
  · exact exec_remove_refused ⟨c, clock⟩ owner group hname hpath σ (hother hnone)

/-- Removes whoever a filter selects; something may stand behind the brackets. -/
private def removeSelected (filter tail : String) : PatchOperation :=
  ⟨"Remove", some ("members[" ++ filter ++ "]" ++ tail), none⟩

theorem removes_or_refuses_sample :
    (∃ s', exec (applyOperation ⟨Sample.config true, 5⟩ Sample.acme .group Sample.staff
        (removeSelected "value sw \"u\"" "")) Sample.directory.start =
          (.ok Sample.staff, { Sample.directory.start with current := s' }) ∧ s'.memberUuids Sample.staff = []) ∧
    exec (applyOperation ⟨Sample.config true, 5⟩ Sample.acme .group Sample.staff
      (removeSelected "value" "")) Sample.directory.start =
        (.error (.refused (.patchFilter (.malformed "value"))), Sample.directory.start) := by
  have hread := removes_or_refuses (Sample.build_config true) 5 Sample.acme Sample.staff
    (o := removeSelected "value sw \"u\"" "") (by decide +kernel) (by decide +kernel) Sample.directory.start
  have hunread := removes_or_refuses (Sample.build_config true) 5 Sample.acme Sample.staff
    (o := removeSelected "value" "") (by decide +kernel) (by decide +kernel) Sample.directory.start
  have hparse : Filter.parse (Sample.config true).memberAttributes "value sw \"u\"" = .ok ⟨"uuid", .sw, "u"⟩ := by
    decide +kernel
  have hcause : Filter.parse (Sample.config true).memberAttributes "value" = .error (.malformed "value") := by
    decide +kernel
  constructor
  · have hselects : SelectsMembers (removeSelected "value sw \"u\"" "").path "value sw \"u\"" := by decide +kernel
    have hremoved := hread.1 "value sw \"u\""
    rw [hparse] at hremoved
    dsimp only at hremoved
    rw [if_neg (by decide +kernel)] at hremoved
    obtain ⟨s', hexec, -, huuids⟩ := hremoved hselects
    exact ⟨s', hexec, huuids.trans (by decide +kernel)⟩
  · have hselects : SelectsMembers (removeSelected "value" "").path "value" := by decide +kernel
    have hrefused := hunread.1 "value"
    rw [hcause] at hrefused
    exact hrefused hselects

/-- A path that ends in a line end is not refused. -/
theorem not_removes_or_refuses :
    ¬∀ {s : Settings} {c : Config}, Config.build s = .ok c → ∀ (clock : Nat) (owner : Company) (group : Row .group)
      (o : PatchOperation), o.name = "remove" → o.path ≠ some "members" →
        (∀ filter : String, (∀ c ∈ filter.toList, BracketPath.isBracket c = false) →
          o.path ≠ some ("members[" ++ filter ++ "]")) →
        ∀ σ, exec (applyOperation ⟨c, clock⟩ owner .group group o) σ =
          (.error (.refused (.patchPath o.path)), σ) := by
  intro hall
  have hpath : ∀ filter : String, (∀ c ∈ filter.toList, BracketPath.isBracket c = false) →
      (removeSelected "value sw \"u\"" "\n").path ≠ some ("members[" ++ filter ++ "]") := by
    intro filter _ e
    have hlast := congrArg (fun p : Option String => (p.getD "").toList.getLast?) e
    simp [removeSelected, String.toList_append] at hlast
    rw [← List.cons_append, List.getLast?_concat] at hlast
    exact absurd hlast (by decide)
  have hrefused := hall (Sample.build_config true) 5 Sample.acme Sample.staff (removeSelected "value sw \"u\"" "\n")
    (by decide +kernel) (by decide +kernel) hpath Sample.directory.start
  have hread : memberFilter (Sample.config true) (removeSelected "value sw \"u\"" "\n").path =
      .ok ⟨"uuid", .sw, "u"⟩ := by
    decide +kernel
  have hdone := exec_remove_read ⟨Sample.config true, 5⟩ Sample.acme Sample.staff
    (o := removeSelected "value sw \"u\"" "\n") (by decide +kernel) (by decide +kernel) Sample.directory.start hread
  rw [Store.matchingMembers_bind_removeMembers _ _ _ rfl, if_neg (by decide +kernel), hrefused] at hdone
  cases hdone

end Roster
