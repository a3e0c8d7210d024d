import Roster.Json.Writer
import Roster.Proofs.ConfigurationErrors
import Roster.Proofs.Noninterference

/-!
Admission.

A request on users or groups gets to the directory with the name and the token of a company. Without them its answer
is settled before anything but the companies is looked at; with them no step of the request asks for credentials
again.
-/

set_option autoImplicit false

namespace Roster

open Step

/-! ## What is settled before the directory -/

/-- An Authorization header gives the name and the token of the company. -/
def Company.IsGivenBy (owner : Company) (header : Option String) : Prop :=
  Credentials.ofHeader header = .basic owner.subdomain owner.token

/-- No two companies have one name. -/
def Store.NamesCompanies (s : Store) : Prop :=
  (s.companies.map Company.subdomain).Nodup

/-- The kind of the resources that a route leads to. -/
def Route.kind? : Route → Option Kind
  | collection k | resource k _ => some k
  | _ => none

/-- A body that counts as JSON has no value: it is no JSON, or its text, its numbers or its depth are beyond the
reader. -/
def Body.IsUnreadable (b : Body) : Prop :=
  b.text.isEmpty = false ∧ isJson b.mediaType = true ∧
    ∀ value, (Encoding.documentText? b.text).map (Json.readWithin Json.maxLevels) ≠ some (.ok value)

/-- A body is read, unless it is unreadable. -/
theorem Body.content_cases (b : Body) :
    (b.IsUnreadable ∧ ∃ answer, content (some b) = .error answer ∧ answer.status = 400) ∨
      ¬b.IsUnreadable ∧ ∃ value, content (some b) = .ok value := by
  rw [content]
  split
  next hempty => exact .inr ⟨fun h => absurd hempty (by rw [h.1]; exact Bool.false_ne_true), _, rfl⟩
  next hfull =>
    split
    next hjson =>
      have hunreadable (h : ∀ value, (Encoding.documentText? b.text).map (Json.readWithin Json.maxLevels) ≠
          some (.ok value)) : b.IsUnreadable :=
        ⟨by simpa using hfull, hjson, h⟩
      split
      next value hvalue => exact .inr ⟨fun h => h.2.2 value hvalue, _, rfl⟩
      all_goals
        next hfailed => exact .inl ⟨hunreadable (by simp [hfailed]), _, rfl, rfl⟩
    next hplain => exact .inr ⟨fun h => hplain h.2.1, _, rfl⟩

namespace WebRequest

/-- A request of a method that uses the body has one that is unreadable. -/
def IsUnreadable (r : WebRequest) (m : Method) : Prop :=
  (m = .post ∨ m = .put ∨ m = .patch) ∧ ∃ b, r.body = some b ∧ b.IsUnreadable

theorem content_cases (r : WebRequest) (m : Method) :
    (r.IsUnreadable m ∧ ∃ answer, r.content m = .error answer ∧ answer.status = 400) ∨
      ¬r.IsUnreadable m ∧ ∃ value, r.content m = .ok value := by
  by_cases hm : m = .post ∨ m = .put ∨ m = .patch
  · have hcontent : r.content m = Body.content r.body := by
      rcases hm with rfl | rfl | rfl <;> rfl
    rw [hcontent, IsUnreadable]
    cases r.body with
    | none => exact .inr ⟨fun ⟨_, b, hb, _⟩ => (nomatch hb), .nothing, rfl⟩
    | some b =>
      rcases b.content_cases with ⟨hunreadable, hcontent⟩ | ⟨hreadable, hcontent⟩
      · exact .inl ⟨⟨hm, b, rfl, hunreadable⟩, hcontent⟩
      · refine .inr ⟨?_, hcontent⟩
        rintro ⟨-, b', hb, hunreadable⟩
        cases hb
        exact hreadable hunreadable
  · refine .inr ⟨fun h => hm h.1, .nothing, ?_⟩
    cases m <;> first | rfl | simp at hm

/-- The answer to a request that gives no company. -/
def rejection (r : WebRequest) (m : Method) : Answer :=
  match r.content m, Credentials.ofHeader r.authorization with
  | .error answer, _ => answer
  | .ok _, .unreadable => .undecodable
  | .ok _, _ => .refusal .credentials

theorem status_rejection (r : WebRequest) (m : Method) :
    (r.IsUnreadable m → (r.rejection m).status = 400) ∧ (¬r.IsUnreadable m → (r.rejection m).status = 401) := by
  rw [rejection]
  rcases r.content_cases m with ⟨hunreadable, answer, hcontent, hstatus⟩ | ⟨hreadable, value, hcontent⟩
  · rw [hcontent]
    exact ⟨fun _ => hstatus, fun h => absurd hunreadable h⟩
  · rw [hcontent]
    refine ⟨fun h => absurd h hreadable, fun _ => ?_⟩
    split <;> first | rfl | contradiction

variable {r : WebRequest} {d : Directory} {owner : Company}

/-- What a header without a company is answered does not depend on the companies. -/
theorem authenticate_of_forall_not (h : ∀ owner ∈ d.store.companies, ¬owner.IsGivenBy r.authorization) :
    r.authenticate (.ready d) = .error (match Credentials.ofHeader r.authorization with
      | .unreadable => .undecodable
      | _ => .refusal .credentials) := by
  unfold authenticate
  cases hheader : Credentials.ofHeader r.authorization with
  | missing => rfl
  | unreadable => rfl
  | basic name password =>
    dsimp only
    cases hauth : d.store.authenticate? name password with
    | none => rfl
    | some owner =>
      obtain ⟨hfound, htoken⟩ := Option.filter_eq_some_iff.1 hauth
      have hname := List.find?_some hfound
      rw [beq_iff_eq] at hname htoken
      refine absurd ?_ (h owner (List.mem_of_find?_eq_some hfound))
      rw [Company.IsGivenBy, hheader, hname, htoken]

/-- The name and the token of a company let a request in as a request of it. -/
theorem isFrom_of_isGivenBy (hnames : d.store.NamesCompanies) (howner : owner ∈ d.store.companies)
    (h : owner.IsGivenBy r.authorization) : r.IsFrom owner d := by
  have hheader : Credentials.ofHeader r.authorization = .basic owner.subdomain owner.token := h
  have hfound : d.store.company? owner.subdomain = some owner := by
    rw [Store.company?]
    cases hfind : d.store.companies.find? fun c => c.subdomain == owner.subdomain with
    | none => exact absurd (beq_self_eq_true _) (List.find?_eq_none.1 hfind owner howner)
    | some other =>
      have hname : other.subdomain = owner.subdomain := by simpa using List.find?_some hfind
      rw [List.inj_on_of_nodup_map hnames (List.mem_of_find?_eq_some hfind) howner hname]
  unfold IsFrom authenticate
  rw [hheader]
  dsimp only
  rw [Store.authenticate?, hfound, Option.filter_some, beq_self_eq_true, if_pos rfl]

end WebRequest

/-! ## Requests of companies -/

/-- No step of a request asks for credentials. -/
theorem Request.credentials_ne (ctx : Context) (owner : Company) (request : Request) (d : Directory) :
    (d.perform ctx owner request).result ≠ .error (.refused .credentials) := by
  intro hresult
  have hsteps : StaysConfigured False (request.steps ctx owner) := staysConfigured_steps nofun owner request nofun
  rw [Directory.perform, Directory.run_eq] at hresult
  rcases hsteps d.start _ hresult with hown | ⟨hmistake, -⟩
  · cases hown
  · cases hmistake

theorem Answer.status_failure {e : Failure} (h : e ≠ .refused .credentials) : (failure e).status ≠ 401 := by
  cases e with
  | fault cause => simp [failure, general, ofJson]
  | refused cause =>
    cases cause with
    | credentials => exact absurd rfl h
    | notFound identifier => cases identifier <;> simp [failure, refusal, Error.status, general, ofJson]
    | _ => simp [failure, refusal, Error.status]

theorem Answer.status_ofResult {status : Nat} (value : Json) (h : status ≠ 401) : (ofResult status value).status ≠ 401 := by
  rw [ofResult]
  split
  · exact h
  · exact status_failure nofun

theorem Request.status_answer (request : Request) {result : Except Failure Json}
    (h : result ≠ .error (.refused .credentials)) : (request.answer result).status ≠ 401 := by
  cases result with
  | error e => exact Answer.status_failure fun he => h (congrArg Except.error he)
  | ok value =>
    cases request with
    | delete k identifier => simp [answer]
    | create k payload => exact Answer.status_ofResult value (by decide)
    | _ => exact Answer.status_ofResult value (by decide)

namespace Site

variable {site : Site} {r : WebRequest} {route : Route} {m : Method}

/-- A web request on users or groups is served, with its whole answer. -/
theorem handle_eq_serve
    (hfound : Destination.of site.sections (Method.ofName? r.method) (Reference.resolve r.path.toList) = .found route m)
    {k : Kind} (hroute : route.kind? = some k) (clock : Nat) (storage : Storage) :
    site.handle clock storage r = site.serve clock storage r route k m := by
  have hanswer : site.answer clock storage r (Method.ofName? r.method) = site.serve clock storage r route k m := by
    rw [answer, hfound]
    cases route <;> cases hroute <;> rfl
  obtain ⟨hm, hallowed⟩ := Destination.answers_of_found hfound
  rw [handle, hanswer]
  refine if_neg fun hhead => ?_
  obtain rfl : m = .head := Option.some.inj (hm.symm.trans hhead)
  cases route <;> cases hroute <;> cases hallowed

/-- Without a company a request on users or groups is rejected, and nothing happens. -/
theorem handle_of_forall_not
    (hfound : Destination.of site.sections (Method.ofName? r.method) (Reference.resolve r.path.toList) = .found route m)
    {k : Kind} (hroute : route.kind? = some k) (clock : Nat) {d : Directory}
    (h : ∀ owner ∈ d.store.companies, ¬owner.IsGivenBy r.authorization) :
    site.handle clock (.ready d) r = ⟨r.rejection m, .ready d, []⟩ := by
  rw [handle_eq_serve hfound hroute, serve, WebRequest.rejection, WebRequest.authenticate_of_forall_not h]
  cases r.content m with
  | error answer => rfl
  | ok value => cases Credentials.ofHeader r.authorization <;> rfl

/-- A request of a company is not answered as one without credentials. -/
theorem status_handle_of_isFrom
    (hfound : Destination.of site.sections (Method.ofName? r.method) (Reference.resolve r.path.toList) = .found route m)
    {k : Kind} (hroute : route.kind? = some k) (clock : Nat) {d : Directory} {owner : Company} (h : r.IsFrom owner d) :
    (site.handle clock (.ready d) r).answer.status ≠ 401 := by
  rw [WebRequest.IsFrom] at h
  rw [handle_eq_serve hfound hroute, serve]
  rcases r.content_cases m with ⟨-, answer, hcontent, hstatus⟩ | ⟨-, value, hcontent⟩
  · rw [hcontent]
    exact fun hunauthorized => absurd (hstatus.symm.trans hunauthorized) (by decide)
  · rw [hcontent, ok_bind, h, ok_bind]
    cases hserve : site.config.serve k with
    | error cause =>
      refine Answer.status_failure (e := .refused (.configuration cause)) fun hcredentials => ?_
      cases hcredentials
    | ok pager =>
      cases hrequest : r.request? value route m with
      | none =>
        intro hunauthorized
        cases hunauthorized
      | some request => exact request.status_answer (request.credentials_ne _ owner d)

end Site

/-- A request on users or groups that gives the name and the token of no company has one answer, whatever is stored:
400 if it has an unreadable body, and otherwise 401. Nothing is changed and nobody is told. A request that gives those
of a company is not answered with 401. -/
theorem turns_away_all_but_companies {site : Site} {r : WebRequest} {route : Route} {m : Method}
    (hfound : Destination.of site.sections (Method.ofName? r.method) (Reference.resolve r.path.toList) = .found route m)
    {k : Kind} (hroute : route.kind? = some k) :
    (∃ answer : Answer, (r.IsUnreadable m → answer.status = 400) ∧ (¬r.IsUnreadable m → answer.status = 401) ∧
      ∀ (clock : Nat) (d : Directory), (∀ owner ∈ d.store.companies, ¬owner.IsGivenBy r.authorization) →
        site.handle clock (.ready d) r = ⟨answer, .ready d, []⟩) ∧
    ∀ (clock : Nat) (d : Directory), d.store.NamesCompanies →
      ∀ owner ∈ d.store.companies, owner.IsGivenBy r.authorization →
        (site.handle clock (.ready d) r).answer.status ≠ 401 := by
  obtain ⟨hbad, hmissing⟩ := r.status_rejection m
  refine ⟨⟨r.rejection m, hbad, hmissing, fun clock d h => ?_⟩, fun clock d hnames owner howner h => ?_⟩
  · exact Site.handle_of_forall_not hfound hroute clock h
  · exact Site.status_handle_of_isFrom hfound hroute clock (WebRequest.isFrom_of_isGivenBy hnames howner h)

/-- Asks for a user of the first company. -/
private def showing (authorization : Option String) : WebRequest :=
  ⟨"GET", "/Users/u1", [], authorization, none⟩

theorem turns_away_all_but_companies_sample :
    ((Sample.site true).handle 5 (.ready Sample.directory) (showing none)).answer.status = 401 ∧
    ((Sample.site true).handle 5 (.ready Sample.directory)
      (showing (some (Credentials.header "acme" "secret")))).answer.status ≠ 401 := by
  have hfound : Destination.of (Sample.site true).sections (Method.ofName? "GET")
      (Reference.resolve "/Users/u1".toList) = .found (.resource .user (some "u1")) .get := by decide +kernel
  constructor
  · obtain ⟨⟨answer, -, hstatus, hanswer⟩, -⟩ := turns_away_all_but_companies (r := showing none) hfound rfl
    rw [hanswer 5 Sample.directory fun owner _ hgiven => (nomatch hgiven)]
    exact hstatus (by rintro ⟨h | h | h, -⟩ <;> cases h)
  · obtain ⟨-, hadmitted⟩ :=
      turns_away_all_but_companies (r := showing (some (Credentials.header "acme" "secret"))) hfound rfl
    refine hadmitted 5 Sample.directory (by unfold Store.NamesCompanies; decide) Sample.acme List.mem_cons_self ?_
    have hheader : Credentials.ofHeader (some (Credentials.header "acme" "secret")) = .basic "acme" "secret" := by
      decide +kernel
    exact hheader

/-! ## Documents beyond the reader -/

/-- Arrays in each other, to a number of levels below the first. -/
private def nested : Nat → Json
  | 0 => .arr []
  | n + 1 => .arr [nested n]

private theorem toList_write_nested (n : Nat) :
    (nested n).write.toList = List.replicate (n + 1) '[' ++ List.replicate (n + 1) ']' := by
  induction n with
  | zero => rfl
  | succ n ih =>
    have hwrite : (nested (n + 1)).write = "[" ++ (nested n).write ++ "]" := by
      rw [nested, Json.write, Json.writeItems, Json.writeItems]
      rfl
    rw [hwrite, String.toList_append, String.toList_append, ih, List.replicate_succ (n := n + 1),
      List.replicate_succ' (n := n + 1)]
    simp

/-- More arrays than the levels that are left are too deep. -/
private theorem readValue_of_deep (levels fuel : Nat) (hfuel : 2 * levels < fuel) (rest : List Char) :
    Json.readValue fuel levels ('[' :: (List.replicate levels '[' ++ rest)) = .error .tooDeep := by
  induction levels generalizing fuel with
  | zero =>
    obtain ⟨fuel, rfl⟩ := Nat.exists_eq_add_of_lt hfuel
    rw [Json.readValue]
  | succ levels ih =>
    obtain ⟨fuel, rfl⟩ := Nat.exists_eq_add_of_lt hfuel
    have hfuel' : 2 * (levels + 1) + fuel + 1 = 2 * levels + fuel + 1 + 1 + 1 := by omega
    have hskip : Json.skipSpace ('[' :: (List.replicate levels '[' ++ rest)) =
        '[' :: (List.replicate levels '[' ++ rest) := rfl
    rw [hfuel', List.replicate_succ, List.cons_append, Json.readValue, hskip]
    change (Json.readItems (2 * levels + fuel + 1 + 1) levels _ >>= _) = _
    rw [Json.readItems, ih _ (by omega)]
    rfl

private theorem toList_toByteArray (octets : List UInt8) : octets.toByteArray.toList = octets := by
  have hloop (octets : ByteArray) : ∀ (n i : Nat) (r : List UInt8), octets.size = i + n →
      ByteArray.toList.loop octets i r = r.reverse ++ octets.data.toList.drop i := by
    intro n
    induction n with
    | zero =>
      intro i r hsize
      have hdone : octets.data.toList.length ≤ i := by
        change octets.size ≤ i
        omega
      rw [ByteArray.toList.loop, if_neg (by omega), List.drop_eq_nil_of_le hdone, List.append_nil]
    | succ n ih =>
      intro i r hsize
      have hlt : i < octets.size := by omega
      have hdrop : octets.data.toList.drop i = octets.get! i :: octets.data.toList.drop (i + 1) := by
        rw [List.drop_eq_getElem_cons (by exact hlt)]
        congr 1
        rw [ByteArray.get!]
        exact (getElem!_pos octets.data i hlt).symm
      rw [ByteArray.toList.loop, if_pos hlt, ih (i + 1) _ (by omega), hdrop]
      simp
  rw [ByteArray.toList, hloop _ octets.length 0 [] (by simp [← ByteArray.size_data])]
  simp

private theorem ofOctets_of_pos {octets : List Nat} (h : ∀ octet ∈ octets, 0 < octet) :
    Encoding.ofOctets octets = .utf8 := by
  unfold Encoding.ofOctets
  split <;> first | rfl | exact absurd (h 0 (by simp)) (Nat.lt_irrefl 0)

/-- A document of characters of ASCII is its own text. -/
private theorem documentText?_of_ascii {document : String} (h : ∀ c ∈ document.toList, 0 < c.toNat ∧ c.toNat < 128) :
    Encoding.documentText? document = some document.toList := by
  have hoctets : document.toUTF8.toList.map UInt8.toNat = document.toList.map Char.toNat := by
    have hutf8 : document.toUTF8 = (document.toList.flatMap String.utf8EncodeChar).toByteArray := by
      conv_lhs => rw [← String.ofList_toList (s := document)]
      exact String.toByteArray_ofList
    have hchar : ∀ c ∈ document.toList, (String.utf8EncodeChar c).map UInt8.toNat = [c.toNat] := by
      intro c hc
      have hsmall : c.val.toNat ≤ 0x7f := Nat.le_of_lt_succ (h c hc).2
      rw [String.utf8EncodeChar, if_pos hsmall]
      rw [List.map_singleton, UInt8.toNat_ofNat', Nat.mod_eq_of_lt (by omega)]
      rfl
    rw [hutf8, toList_toByteArray, List.map_flatMap, List.flatMap_congr hchar, List.map_eq_flatMap]
  have hmark : Encoding.withoutMark document.toList = document.toList := by
    unfold Encoding.withoutMark
    split
    next rest hlist =>
      have hsmall := (h '\ufeff' (by rw [hlist]; exact List.mem_cons_self)).2
      exact absurd hsmall (by decide)
    next => rfl
  unfold Encoding.documentText?
  dsimp only
  rw [hoctets, ofOctets_of_pos]
  · dsimp only
    rw [hmark]
  · intro octet hoctet
    obtain ⟨c, hc, rfl⟩ := List.mem_map.1 hoctet
    exact (h c hc).1
/-- A body of arrays that are nested beyond the reader. -/
private theorem isUnreadable_nested {n : Nat} (hn : Json.maxLevels ≤ n) :
    Body.IsUnreadable ⟨(nested n).write, "application/json"⟩ := by
  have htext := toList_write_nested n
  have hascii : ∀ c ∈ (nested n).write.toList, 0 < c.toNat ∧ c.toNat < 128 := by
    intro c hc
    rw [htext, List.mem_append, List.mem_replicate, List.mem_replicate] at hc
    rcases hc with ⟨-, rfl⟩ | ⟨-, rfl⟩ <;> decide
  have hread : Json.readWithin Json.maxLevels (nested n).write.toList = .error .tooDeep := by
    obtain ⟨more, rfl⟩ := Nat.exists_eq_add_of_le hn
    have hdeep : (nested (Json.maxLevels + more)).write.toList = '[' :: (List.replicate Json.maxLevels '[' ++
        (List.replicate more '[' ++ List.replicate (Json.maxLevels + more + 1) ']')) := by
      rw [htext, List.replicate_succ, List.cons_append, List.replicate_add, List.append_assoc]
    have hskip (rest : List Char) : Json.skipSpace ('[' :: rest) = '[' :: rest := rfl
    rw [hdeep, Json.readWithin, hskip, readValue_of_deep Json.maxLevels _ (by simp; omega)]
    rfl
  refine ⟨?_, (by decide : Body.isJson "application/json" = true), ?_⟩
  · rw [Bool.eq_false_iff, Ne, String.isEmpty_iff]
    intro hempty
    have hnone : (nested n).write.toList = [] := congrArg String.toList hempty
    rw [hnone, List.replicate_succ] at htext
    cases htext
  · rw [documentText?_of_ascii hascii, Option.map_some, hread]
    exact fun value h => (nomatch h)

/-- A request without credentials for a new user, the body of which is an array in arrays. -/
private def deepRequest : WebRequest :=
  ⟨"POST", "/Users", [], none, some ⟨(nested 2999).write, "application/json"⟩⟩

/-- A body that is JSON but too deep is refused before credentials are asked for. -/
theorem not_turns_away_all_but_companies :
    ¬∀ {site : Site} {r : WebRequest} {route : Route} {m : Method},
      Destination.of site.sections (Method.ofName? r.method) (Reference.resolve r.path.toList) = .found route m →
      ∀ {k : Kind}, route.kind? = some k → ∀ (clock : Nat) (d : Directory),
        (∀ owner ∈ d.store.companies, ¬owner.IsGivenBy r.authorization) →
        (site.handle clock (.ready d) r).answer.status = 401 ∨
          (site.handle clock (.ready d) r).answer.status = 400 ∧
            ∀ b, r.body = some b → ∀ value : Json, b.text ≠ value.write := by
  intro hanswers
  have hfound : Destination.of (Sample.site true).sections (Method.ofName? deepRequest.method)
      (Reference.resolve deepRequest.path.toList) = .found (.collection .user) .post := by decide +kernel
  have hnone : ∀ owner ∈ Sample.directory.store.companies, ¬owner.IsGivenBy deepRequest.authorization :=
    fun owner _ hgiven => (nomatch hgiven)
  have hunreadable : deepRequest.IsUnreadable .post := ⟨.inl rfl, _, rfl, isUnreadable_nested (by decide)⟩
  have hstatus : ((Sample.site true).handle 5 (.ready Sample.directory) deepRequest).answer.status = 400 := by
    rw [Site.handle_of_forall_not hfound rfl 5 hnone]
    exact (deepRequest.status_rejection .post).1 hunreadable
  rcases hanswers hfound rfl 5 Sample.directory hnone with hunauthorized | ⟨-, hsyntax⟩
  · exact absurd (hstatus.symm.trans hunauthorized) (by decide)
  · exact hsyntax _ rfl (nested 2999) rfl

end Roster
