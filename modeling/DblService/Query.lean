import DblService.Mgmt
import DblService.Service.Reports

/-!
# Looking up records that do not exist

A manager answers a lookup that finds nothing with a record as it was constructed.  The
command line tests the name of the record; the handlers of the service send it.
-/

namespace DblService

open Framework Session

def showOptional : Option String → String
  | some text => " " ++ text
  | none => "--"

def Query.printDomainDetails (domain : String) : Code Managed := do
  match ← DomainManager.getByName domain with
  | some record =>
    if record.name ≠ "" then
      pure { done := true, out := record.name ++ " :" ++ showOptional record.listName ++ "\n" }
    else
      pure { done := false }
  | none => pure { done := false }

/-! ## The records -/

namespace Db

variable {db : Db} {name : String}

/-- The name belongs to a list that is switched on. -/
def HasDomain (db : Db) (name : String) : Prop :=
  ∃ l ∈ db.domainLists, l.active = true ∧ db.owner name = some l.id

def HasList (db : Db) (name : String) : Prop := ∃ l, db.listNamed name = some l

/-- The record that a lookup leaves for a domain. -/
def domainRecord (db : Db) (name : String) : Domain :=
  ((Query.getDomainByName name).rows db).head?.getD {}

private theorem domainRecord_name (hname : name ≠ "") :
    ((db.domainRecord name).name = name ↔ db.HasDomain name) ∧
      ((db.domainRecord name).name ≠ "" ↔ db.HasDomain name) := by
  have hrow (d : Domain) (hd : ((Query.getDomainByName name).rows db).head? = some d) :
      d.name = name ∧ db.HasDomain name := by
    have hmem := List.mem_of_mem_head? hd
    obtain ⟨hjoin, hdn⟩ := List.mem_filter.mp hmem
    have hdn : d.name = name := of_decide_eq_true hdn
    obtain ⟨l, hl, hactive, howner, _⟩ := mem_joinLists.mp hjoin
    exact ⟨hdn, l, hl, hactive, hdn ▸ howner⟩
  unfold domainRecord
  cases hd : ((Query.getDomainByName name).rows db).head? with
  | some d =>
    obtain ⟨hdn, hhas⟩ := hrow d hd
    rw [Option.getD_some, hdn]
    exact ⟨iff_of_true rfl hhas, iff_of_true hname hhas⟩
  | none =>
    have hnot : ¬ db.HasDomain name := by
      rintro ⟨l, hl, hactive, howner⟩
      have hmem : ({ name, listId := l.id, listName := some l.name } : Domain) ∈
          (Query.getDomainByName name).rows db :=
        List.mem_filter.mpr ⟨mem_joinLists.mpr ⟨l, hl, hactive, howner, rfl⟩, decide_eq_true rfl⟩
      rw [List.head?_eq_none_iff.mp hd] at hmem
      cases hmem
    rw [Option.getD_none]
    exact ⟨iff_of_false (Ne.symm hname) hnot, iff_of_false (by simp) hnot⟩

end Db

theorem Query.exec_printDomainDetails (s : Store) (name : String) (hs : s.held = false) :
    ∃ shown s', s.exec (printDomainDetails name) = some (.ok shown, s') ∧
      (s'.ambient.raised = s.ambient.raised →
        (shown.done = true ↔ (s.conn.view.domainRecord name).name ≠ "")) := by
  rw [printDomainDetails, Store.exec_bind, Store.exec_getDomainByName s name hs]
  cases hf : s.ambient.faulty with
  | true => exact ⟨{ done := false }, s.afterRaise s.conn 1, rfl, by simp⟩
  | false =>
    change ∃ shown s', (s.after s.conn 1).exec
      (if (s.conn.view.domainRecord name).name ≠ "" then _ else _) = some (.ok shown, s') ∧ _
    split_ifs with hne
    · exact ⟨_, _, rfl, fun _ => iff_of_true rfl hne⟩
    · exact ⟨_, _, rfl, fun _ => iff_of_false Bool.false_ne_true hne⟩

/-! ## The answers of the service -/

namespace ServiceConnection

def Processed.Success (p : Processed) : Prop := p.answer.get "success" = .ok (.bool true)

/-- The record of the answer carries the name. -/
def Processed.Carries (p : Processed) (name : String) : Prop :=
  ∃ record, p.answer.get "data" = .ok record ∧ record.get "name" = .ok (.string name)

/-- A request for a record succeeds exactly when it is there, and answers the one that was asked
for. -/
structure Agrees (name : String) (found : Prop) (r : Except Exc Processed) : Prop where
  succeeds : (∃ p, r = .ok p ∧ p.Success) ↔ found
  carries : ∀ p, r = .ok p → p.Success → p.Carries name

private theorem agrees_accepted_iff {name n : String} {found : Prop} {p : Processed} {record : Json}
    (hanswer : p.answer = accepted record) (hname : record.get "name" = .ok (.string n))
    (hfound : found ↔ n = name) : Agrees name found (.ok p) ↔ found := by
  have hsuccess : p.Success := by
    rw [Processed.Success, hanswer]
    rfl
  constructor
  · intro h
    exact h.succeeds.mp ⟨p, rfl, hsuccess⟩
  · intro h
    refine ⟨iff_of_true ⟨p, rfl, hsuccess⟩ h, ?_⟩
    intro p' hp' _
    cases hp'
    refine ⟨record, by rw [hanswer]; rfl, ?_⟩
    rw [hname, hfound.mp h]

section
variable {env : Env} {status : Status} {conn : ServiceConnection} {request : String} {data : Json}
  {name : String}

theorem exec_getDomain_agrees (hauth : conn.isAuthenticated = true)
    (hparse : parseRequest env request = .ok ("get_domain", data))
    (hjob : Command.getDomain.job env data = .ok (.getDomain name)) (hname : name ≠ "")
    (s : Store) (hs : s.held = false) :
    ∃ r s', s.exec (processRequest env status conn request) = some (r, s') ∧
      (s'.ambient.raised = s.ambient.raised → ∀ found : Prop, (found ↔ s.conn.view.HasDomain name) →
        (Agrees name found r ↔ s.conn.view.HasDomain name)) := by
  have hexec := Command.getDomain.exec_request status hauth hparse s
  simp only [hjob, Job.finish_getDomain, Store.exec_bind, Store.exec_getDomainByName s name hs]
    at hexec
  cases hf : s.ambient.faulty with
  | true =>
    rw [hf] at hexec
    exact ⟨_, s.afterRaise s.conn 1, hexec, by simp⟩
  | false =>
    rw [hf] at hexec
    refine ⟨_, s.after s.conn 1, hexec, ?_⟩
    intro _ found hfound
    rw [← hfound]
    have hrecord : (s.conn.view.domainRecord name).toJson.get "name" =
        .ok (.string (s.conn.view.domainRecord name).name) := by
      unfold Domain.toJson
      cases (s.conn.view.domainRecord name).listName <;> rfl
    exact agrees_accepted_iff rfl hrecord (hfound.trans (Db.domainRecord_name hname).1.symm)

private theorem toJson_name (lst : DomainList) :
    (lst.toJson (.object [])).get "name" = .ok (.string lst.name) := by
  unfold DomainList.toJson
  cases lst.description <;> rfl

theorem exec_getDomainList_agrees {withDomains : Bool} (hauth : conn.isAuthenticated = true)
    (hparse : parseRequest env request = .ok ("get_domain_list", data))
    (hjob : Command.getDomainList.job env data = .ok (.getDomainList name withDomains))
    (hname : name ≠ "") (s : Store) (hs : s.held = false) :
    ∃ r s', s.exec (processRequest env status conn request) = some (r, s') ∧
      (s'.ambient.raised = s.ambient.raised →
        (Agrees name (s.conn.view.HasList name) r ↔ s.conn.view.HasList name)) := by
  have hexec := Command.getDomainList.exec_request status hauth hparse s
  rcases s.exec_getListByName_cases name withDomains hs with
    ⟨_, hget⟩ | ⟨_, s', hget, _⟩
  · simp only [hjob, Job.finish_getDomainList, Store.exec_bind, hget] at hexec
    exact ⟨_, s.afterRaise s.conn 1, hexec, by simp⟩
  · simp only [hjob, Job.finish_getDomainList, Store.exec_bind, hget] at hexec
    refine ⟨_, s', hexec, ?_⟩
    intro _
    apply agrees_accepted_iff rfl (toJson_name _)
    rw [s.listFound_name, Db.HasList]
    cases hl : s.conn.view.listNamed name with
    | none => exact iff_of_false (by simp) (Ne.symm hname)
    | some l => exact iff_of_true ⟨l, rfl⟩ (Db.listNamed_eq_some.mp hl).2

end

/-- The service and the command line agree on a record exactly when it is there. -/
theorem lookups_agree_iff (env : Env) (status : Status) (conn : ServiceConnection)
    (hauth : conn.isAuthenticated = true) {request listRequest : String} {data listData : Json}
    {name listName : String} {withDomains : Bool} (hname : name ≠ "") (hlistName : listName ≠ "")
    (hparse : parseRequest env request = .ok ("get_domain", data))
    (hjob : Command.getDomain.job env data = .ok (.getDomain name))
    (hparseList : parseRequest env listRequest = .ok ("get_domain_list", listData))
    (hjobList : Command.getDomainList.job env listData = .ok (.getDomainList listName withDomains))
    (s : Store) (hs : s.held = false) :
    ∃ r s₁ shown s₂ r' s₃, s.exec (processRequest env status conn request) = some (r, s₁) ∧
      s.exec (Query.printDomainDetails name) = some (.ok shown, s₂) ∧
      s.exec (processRequest env status conn listRequest) = some (r', s₃) ∧
      (s₁.ambient.raised = s.ambient.raised → s₂.ambient.raised = s.ambient.raised →
        s₃.ambient.raised = s.ambient.raised →
          (shown.done = true ↔ s.conn.view.HasDomain name) ∧
          (Agrees name (shown.done = true) r ↔ s.conn.view.HasDomain name) ∧
          (Agrees listName (s.conn.view.HasList listName) r' ↔ s.conn.view.HasList listName)) := by
  obtain ⟨r, s₁, hrun, hagrees⟩ :=
    @exec_getDomain_agrees env status conn request data name hauth hparse hjob hname s hs
  obtain ⟨shown, s₂, hshown, hdone⟩ := Query.exec_printDomainDetails s name hs
  obtain ⟨r', s₃, hrunList, hlist⟩ := @exec_getDomainList_agrees env status conn listRequest
    listData listName withDomains hauth hparseList hjobList hlistName s hs
  refine ⟨r, s₁, shown, s₂, r', s₃, hrun, hshown, hrunList, ?_⟩
  intro h₁ h₂ h₃
  have hfound : shown.done = true ↔ s.conn.view.HasDomain name :=
    (hdone h₂).trans (Db.domainRecord_name hname).2
  exact ⟨hfound, hagrees h₁ _ hfound, hlist h₃⟩

def getDomainRequest (name : String) : Json :=
  .object [("command", .string "get_domain"), ("data", .object [("name", .string name)])]

def getDomainListRequest (name : String) : Json :=
  .object [("command", .string "get_domain_list"), ("data", .object [("name", .string name)])]

/-- A name and its list, both there. -/
theorem lookups_agree_ads :
    let env := Env.ofTexts [("domain", getDomainRequest "ads.example"),
      ("list", getDomainListRequest "ads")]
    let conn : ServiceConnection := ⟨⟨Uuid.zero⟩, true⟩
    let s := Store.free ⟨adsDb, none⟩
    ∃ r s₁ shown s₂ r' s₃, s.exec (processRequest env {} conn "domain") = some (r, s₁) ∧
      s.exec (Query.printDomainDetails "ads.example") = some (.ok shown, s₂) ∧
      s.exec (processRequest env {} conn "list") = some (r', s₃) ∧
      Agrees "ads.example" (shown.done = true) r ∧ Agrees "ads" (adsDb.HasList "ads") r' := by
  intro env conn s
  obtain ⟨r, s₁, shown, s₂, r', s₃, hrun, hshown, hrunList, hiff⟩ :=
    @lookups_agree_iff env {} conn rfl "domain" "list" (.object [("name", .string "ads.example")])
      (.object [("name", .string "ads")]) "ads.example" "ads" false (by decide) (by decide) rfl rfl
      rfl rfl s rfl
  have hraised {α : Type} {p : Code α} {r : Except Exc α} {s' : Store} (h : s.exec p = some (r, s'))
      (hp : (s.exec p).map (fun x => x.2.ambient.raised) = some 0) : s'.ambient.raised = 0 := by
    rw [h] at hp
    exact Option.some.inj hp
  obtain ⟨_, hdomain, hlist⟩ := hiff (hraised hrun (by decide +kernel))
    (hraised hshown (by decide +kernel)) (hraised hrunList (by decide +kernel))
  refine ⟨r, s₁, shown, s₂, r', s₃, hrun, hshown, hrunList, hdomain.mpr ?_, hlist.mpr ?_⟩
  · exact ⟨adsRow true, by decide +kernel, rfl, by decide +kernel⟩
  · exact ⟨adsRow true, by decide +kernel⟩

/-- Neither is there: both requests succeed with an empty record, and the command line finds
nothing. -/
theorem lookups_missing :
    let env := Env.ofTexts [("domain", getDomainRequest "ads.example"),
      ("list", getDomainListRequest "ads")]
    let conn : ServiceConnection := ⟨⟨Uuid.zero⟩, true⟩
    let s := Store.free ⟨Db.seeded, none⟩
    s.exec (processRequest env {} conn "domain") =
        some (.ok { answer := accepted ({} : Domain).toJson, conn }, s) ∧
      s.exec (Query.printDomainDetails "ads.example") = some (.ok { done := false }, s) ∧
      s.exec (processRequest env {} conn "list") =
        some (.ok { answer := accepted (({} : DomainList).toJson (.object [])), conn }, s) ∧
      (∀ p : Processed, p.answer = accepted ({} : Domain).toJson →
        p.Success ∧ ¬ p.Carries "ads.example") ∧
      ¬ Db.seeded.HasList "ads" := by
  intro env conn s
  refine ⟨rfl, rfl, rfl, ?_, ?_⟩
  · intro p hp
    rw [Processed.Success, Processed.Carries, hp]
    refine ⟨rfl, ?_⟩
    rintro ⟨record, hrecord, hname⟩
    cases hrecord
    have hempty : "" = "ads.example" := Json.string.inj (Except.ok.inj hname)
    simp at hempty
  · rintro ⟨l, hl⟩
    have hnone : Db.seeded.listNamed "ads" = none := by decide +kernel
    rw [hnone] at hl
    cases hl

end ServiceConnection

end DblService
