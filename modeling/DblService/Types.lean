import DblService.Environment

/-!
# Domains and domain lists

The records of `types/` and their JSON form.  A decoder changes the object as it
goes, so it is a state action: what an exception leaves behind is the object as
far as it was filled in.
-/

namespace DblService

structure Domain where
  name : String := ""
  listId : Int := 0
  listName : Option String := some ""
  deriving DecidableEq, Repr

structure DomainList where
  id : Int := 0
  name : String := ""
  url : String := ""
  description : Option String := some ""
  active : Int := 0
  custom : Int := 0
  mtime : Int := 0
  domains : List Domain := []
  deriving DecidableEq, Repr

/-- A decoder of an object of type `α`. -/
abbrev Decoder (α : Type) := ExceptT Exc (StateM α)

/-- Whatever object it starts from, the decoder ends with a value or a `std::exception`. -/
def Decoder.Standard {α β : Type} (p : Decoder α β) : Prop :=
  ∀ a, DblService.Standard (p.run.run a).1

namespace Decoder.Standard

variable {α β γ : Type}

theorem pure (b : β) : Decoder.Standard (Pure.pure b : Decoder α β) := fun _ => .ok b

theorem throw {e : Exc} (h : e.isException = true) :
    Decoder.Standard (MonadExcept.throw e : Decoder α β) := fun _ => .error h

theorem modify (f : α → α) : Decoder.Standard (modify f : Decoder α PUnit) := fun _ => .ok _

theorem lift {r : Except Exc β} (h : DblService.Standard r) :
    Decoder.Standard (liftM r : Decoder α β) := fun _ => h

theorem bind {p : Decoder α β} {f : β → Decoder α γ} (hp : Decoder.Standard p)
    (hf : ∀ b, Decoder.Standard (f b)) : Decoder.Standard (p >>= f) := by
  intro a
  have hpa := hp a
  rw [ExceptT.run_bind, StateT.run_bind]
  rcases hrun : p.run.run a with ⟨r, a'⟩
  rw [hrun] at hpa
  cases r with
  | ok b => exact hf b a'
  | error e => exact .error (hpa e rfl)

private theorem unlessEmpty {env : Env} {root : Json} {key : String} {found : Json → Decoder α β}
    {rest : Decoder α β} (hfound : ∀ j, Decoder.Standard (found j)) (hrest : Decoder.Standard rest)
    :
    Decoder.Standard (do
      let j ← env.get root key
      if !j.empty then found j else rest) := by
  apply (lift (env.standard_lift _)).bind
  intro j
  split_ifs
  · exact hfound j
  · exact hrest

end Decoder.Standard

namespace Domain

def initFromJson (env : Env) (root : Json) : Decoder Domain Unit := do
  if !root.isObject then
    throw (.runtime "Invalid format")
  let name ← env.get root "name"
  if !name.empty then
    let name ← env.asString name
    if env.isValid name then
      modify fun d => { d with name }
  let listId ← env.get root "list_id"
  if !listId.empty then
    let listId ← env.asInt listId
    modify fun d => { d with listId }
  let listName ← env.get root "list_name"
  if !listName.empty then
    let listName ← env.asString listName
    modify fun d => { d with listName := some listName }

def toJson (d : Domain) : Json :=
  let root := (Json.object []).set "name" (.string d.name)
  let root := root.set "list_id" (.int d.listId)
  match d.listName with
  | some listName => root.set "list_name" (.string listName)
  | none => root

end Domain

namespace DomainList

/-- The loop over the entries of `domains`. -/
def pushEntries (env : Env) (entries : List Json) : Decoder DomainList Unit :=
  entries.forM fun item => do
    let name ← env.get item "name"
    if !name.empty then
      let name ← env.asString name
      if env.isValid name then
        modify fun l => { l with domains := l.domains ++ [{ name }] }

def initFromJson (env : Env) (root : Json) : Decoder DomainList Unit := do
  let name ← env.get root "name"
  if !name.empty then
    let name ← env.asString name
    modify fun l => { l with name }
  let url ← env.get root "url"
  if !url.empty then
    let url ← env.asString url
    modify fun l => { l with url }
  let description ← env.get root "description"
  if !description.empty then
    let description ← env.asString description
    modify fun l => { l with description := some description }
  let domains ← env.get root "domains"
  if !domains.empty && !domains.isArray then
    throw (.runtime "Invalid format")
  else
    pushEntries env domains.items

private theorem standard_pushEntries (env : Env) (entries : List Json) :
    (pushEntries env entries).Standard := by
  induction entries with
  | nil => exact .pure _
  | cons item entries ih =>
    refine Decoder.Standard.bind (.unlessEmpty ?_ (.pure _)) fun _ => ih
    intro j
    apply Decoder.Standard.bind (.lift (env.standard_lift _))
    intro name
    split_ifs
    · exact .modify _
    · exact .pure _

/-- A document that cannot be decoded is refused by a `std::exception`. -/
theorem standard_initFromJson (env : Env) (root : Json) : (initFromJson env root).Standard := by
  have hdomains : Decoder.Standard (do
      let domains ← env.get root "domains"
      if !domains.empty && !domains.isArray then throw (.runtime "Invalid format")
      else pushEntries env domains.items : Decoder DomainList Unit) := by
    apply Decoder.Standard.bind (.lift (env.standard_lift _))
    intro domains
    split_ifs
    · exact .throw rfl
    · exact standard_pushEntries env _
  have hmember {α : Type} {r : Json → Except Exc α} (hr : ∀ j, Standard (r j)) (key : String)
      (store : α → DomainList → DomainList) {rest : Decoder DomainList Unit}
      (hrest : rest.Standard) : Decoder.Standard (do
        let j ← env.get root key
        if !j.empty then
          let a ← r j
          modify (store a)
          rest
        else rest : Decoder DomainList Unit) :=
    .unlessEmpty (fun j => .bind (.lift (hr j)) fun a => .bind (.modify _) fun _ => hrest) hrest
  have hstring (j : Json) : Standard (env.asString j) := env.standard_lift _
  exact hmember hstring "name" (fun name l => { l with name })
    (hmember hstring "url" (fun url l => { l with url })
      (hmember hstring "description" (fun d l => { l with description := some d }) hdomains))

/-- `from_json` of a text: a text the reader does not parse leaves the object alone. -/
def fromJson (env : Env) (input : String) : Decoder DomainList Unit :=
  match env.parseJson input with
  | some root => initFromJson env root
  | none => pure ()

def toJson (l : DomainList) (root : Json) : Json :=
  let root := root.set "name" (.string l.name)
  let root := root.set "url" (.string l.url)
  let root := match l.description with
    | some description => root.set "description" (.string description)
    | none => root
  root.set "domains" (.array (l.domains.map Domain.toJson))

/-- Each entry whose name is valid is pushed, with its name only. -/
theorem pushEntries_toJson (env : Env) (domains : List Domain) (l : DomainList) :
    (pushEntries env (domains.map Domain.toJson)).run.run l =
      (.ok (), { l with domains := l.domains ++
        (domains.filter fun d => env.isValid d.name).map fun d => { name := d.name } }) := by
  induction domains generalizing l with
  | nil =>
    simp only [List.map_nil, List.filter_nil, List.append_nil]
    rfl
  | cons d ds ih =>
    have hname : env.get d.toJson "name" = .ok (.string d.name) := by
      obtain ⟨name, listId, listName⟩ := d
      cases listName <;> rfl
    have hstep : (pushEntries env ((d :: ds).map Domain.toJson)).run.run l =
        (pushEntries env (ds.map Domain.toJson)).run.run
          (if env.isValid d.name then { l with domains := l.domains ++ [{ name := d.name }] }
            else l) := by
      rw [List.map_cons]
      change (((liftM (env.get d.toJson "name") : Decoder DomainList Json) >>= _) >>=
        fun _ => pushEntries env _).run.run l = _
      rw [hname]
      change ((if env.isValid d.name = true then _ else _ : Decoder DomainList Unit) >>=
        fun _ => pushEntries env _).run.run l = _
      cases env.isValid d.name <;> rfl
    rw [hstep, ih]
    cases hv : env.isValid d.name with
    | true => simp [hv]
    | false => simp [hv]

/-- A list that is written and read again has its name, url and description, and the names
of its domains that are valid. -/
theorem initFromJson_toJson (env : Env) (lst : DomainList) :
    (initFromJson env (lst.toJson .null)).run.run {} =
      (.ok (), { name := lst.name, url := lst.url, description := some (lst.description.getD "")
                 domains := (lst.domains.filter fun d => env.isValid d.name).map fun d =>
                   { name := d.name } }) := by
  obtain ⟨id, name, url, description, active, custom, mtime, domains⟩ := lst
  have hpush := pushEntries_toJson env domains
  cases description with
  | none =>
    cases domains with
    | nil => exact hpush { name, url }
    | cons d ds => exact hpush { name, url }
  | some description =>
    cases domains with
    | nil => exact hpush { name, url, description := some description }
    | cons d ds => exact hpush { name, url, description := some description }

end DomainList

end DblService
