import DblService.Types

/-!
# What decoding leaves behind

`DomainList::init_from_json` assigns the members in order, and each one before the next is
read.  When an access raises, the object holds what was read until then.
-/

namespace DblService

/-- The member as a string; `none` is one that is skipped. -/
def Env.readMember (env : Env) (root : Json) (key : String) : Except Exc (Option String) := do
  let j ← env.get root key
  if j.empty then
    pure none
  else
    let text ← env.asString j
    pure (some text)

namespace DomainList

def readEntries (env : Env) (root : Json) : Except Exc (List Json) := do
  let domains ← env.get root "domains"
  if !domains.empty && !domains.isArray then throw (.runtime "Invalid format")
  else pure domains.items

/-- The domain that an entry is read into. -/
def readEntry (env : Env) (item : Json) : Except Exc (Option Domain) := do
  let name ← env.readMember item "name"
  pure ((name.filter env.isValid).map fun name => { name })

def entryDomain (env : Env) (item : Json) : Option Domain := (readEntry env item).toOption.join

def pushed (env : Env) (entries : List Json) : List Domain := entries.filterMap (entryDomain env)

def EntryFails (env : Env) (item : Json) : Prop := ∃ e, readEntry env item = .error e

section
variable (env : Env) (root : Json) (l : DomainList)

/-- A string member, when it is there. -/
theorem run_member (key : String) (store : String → DomainList → DomainList)
    (rest : Decoder DomainList Unit) :
    (do
      let j ← env.get root key
      if !j.empty then
        let text ← env.asString j
        modify (store text)
        rest
      else rest : Decoder DomainList Unit).run.run l =
    match env.readMember root key with
    | .error e => (.error e, l)
    | .ok text => rest.run.run (text.elim l fun text => store text l) := by
  unfold Env.readMember
  cases env.get root key with
  | error e => rfl
  | ok j =>
    change (if (!j.empty) = true then _ else rest : Decoder DomainList Unit).run.run l =
      match (if j.empty = true then _ else env.asString j >>= _ : Except Exc (Option String)) with
      | .error e => (.error e, l)
      | .ok text => rest.run.run (text.elim l fun text => store text l)
    cases j.empty with
    | true => rfl
    | false => cases env.asString j <;> rfl

/-- The check of `domains` and the loop. -/
theorem run_domains :
    (do
      let domains ← env.get root "domains"
      if !domains.empty && !domains.isArray then throw (.runtime "Invalid format")
      else pushEntries env domains.items : Decoder DomainList Unit).run.run l =
    match readEntries env root with
    | .error e => (.error e, l)
    | .ok entries => (pushEntries env entries).run.run l := by
  unfold readEntries
  cases env.get root "domains" with
  | error e => rfl
  | ok domains =>
    change (if (!domains.empty && !domains.isArray) = true then _ else _ :
      Decoder DomainList Unit).run.run l =
        match (if (!domains.empty && !domains.isArray) = true then _ else _ :
          Except Exc (List Json)) with
        | .error e => (.error e, l)
        | .ok entries => (pushEntries env entries).run.run l
    cases !domains.empty && !domains.isArray <;> rfl

/-- One entry. -/
theorem run_pushEntries_cons (item : Json) (entries : List Json) :
    (pushEntries env (item :: entries)).run.run l =
    match readEntry env item with
    | .error e => (.error e, l)
    | .ok d => (pushEntries env entries).run.run { l with domains := l.domains ++ d.toList } := by
  unfold readEntry Env.readMember
  change (((liftM (env.get item "name") : Decoder DomainList Json) >>= _) >>=
    fun _ => pushEntries env entries).run.run l = _
  cases env.get item "name" with
  | error e => rfl
  | ok j =>
    change ((if (!j.empty) = true then _ else _ : Decoder DomainList Unit) >>=
      fun _ => pushEntries env entries).run.run l =
        match ((if j.empty = true then _ else _) >>= _ : Except Exc (Option Domain)) with
        | .error e => (.error e, l)
        | .ok d => (pushEntries env entries).run.run { l with domains := l.domains ++ d.toList }
    cases j.empty with
    | true =>
      change (pushEntries env entries).run.run l =
        (pushEntries env entries).run.run { l with domains := l.domains ++ [] }
      rw [List.append_nil]
    | false =>
      cases env.asString j with
      | error e => rfl
      | ok name =>
        change ((if env.isValid name = true then _ else _ : Decoder DomainList Unit) >>=
          fun _ => pushEntries env entries).run.run l =
            (pushEntries env entries).run.run { l with
              domains := l.domains ++
                (((some name).filter env.isValid).map fun name => ({ name } : Domain)).toList }
        rw [Option.filter_some]
        cases env.isValid name with
        | true => rfl
        | false =>
          change (pushEntries env entries).run.run l =
            (pushEntries env entries).run.run { l with domains := l.domains ++ [] }
          rw [List.append_nil]

end

/-! ## What a run leaves -/

/-- The object once the members that are there were assigned. -/
def filled (l : DomainList) (name url description : Option String) : DomainList :=
  { l with name := name.getD l.name, url := url.getD l.url
           description := description.or l.description }

def push (l : DomainList) (domains : List Domain) : DomainList :=
  { l with domains := l.domains ++ domains }

@[simp]
theorem push_nil (l : DomainList) : l.push [] = l := by
  rw [push, List.append_nil]

private theorem push_push (l : DomainList) (ds es : List Domain) :
    (l.push ds).push es = l.push (ds ++ es) := by
  simp only [push, List.append_assoc]

section
variable (env : Env)

@[simp]
theorem pushed_nil : pushed env [] = [] := rfl

private theorem pushed_cons {item : Json} {d : Option Domain} (h : readEntry env item = .ok d)
    (entries : List Json) : pushed env (item :: entries) = d.toList ++ pushed env entries := by
  have hitem : entryDomain env item = d := by
    rw [entryDomain, h]
    rfl
  unfold pushed
  cases d with
  | none => rw [List.filterMap_cons_none hitem]; rfl
  | some d => rw [List.filterMap_cons_some hitem]; rfl

/-- What the loop does: every entry is read, or one of them cannot be read and the domains of
those before it were pushed. -/
theorem run_pushEntries (entries : List Json) (l : DomainList) :
    ((∀ item ∈ entries, ¬ EntryFails env item) ∧
      (pushEntries env entries).run.run l = (.ok (), l.push (pushed env entries))) ∨
    ∃ before item after e, entries = before ++ item :: after ∧
      (∀ item ∈ before, ¬ EntryFails env item) ∧ readEntry env item = .error e ∧
      (pushEntries env entries).run.run l = (.error e, l.push (pushed env before)) := by
  induction entries generalizing l with
  | nil =>
    left
    constructor
    · simp
    · rw [pushed_nil, push_nil]
      rfl
  | cons item entries ih =>
    rw [run_pushEntries_cons]
    cases hitem : readEntry env item with
    | error e =>
      right
      refine ⟨[], item, entries, e, rfl, by simp, hitem, ?_⟩
      rw [pushed_nil, push_nil]
    | ok d =>
      have hfine : ¬ EntryFails env item := by
        intro ⟨e, he⟩
        rw [hitem] at he
        cases he
      have hpush (rest : List Json) : (l.push d.toList).push (pushed env rest) =
          l.push (pushed env (item :: rest)) := by
        rw [push_push, pushed_cons env hitem]
      rcases ih (l.push d.toList) with ⟨hall, hrun⟩ | ⟨before, bad, after, e, heq, hall, hbad, hrun⟩
      · left
        rw [hpush] at hrun
        exact ⟨List.forall_mem_cons.2 ⟨hfine, hall⟩, hrun⟩
      · right
        rw [hpush] at hrun
        refine ⟨item :: before, bad, after, e, ?_, List.forall_mem_cons.2 ⟨hfine, hall⟩, hbad, hrun⟩
        rw [heq, List.cons_append]

variable (root : Json)

/-- Everything `init_from_json` can do to an object. -/
inductive Decoded (l : DomainList) : Except Exc Unit → DomainList → Prop
  | name (e : Exc) (h : env.readMember root "name" = .error e) : Decoded l (.error e) l
  | url (name : Option String) (e : Exc) (hname : env.readMember root "name" = .ok name)
      (h : env.readMember root "url" = .error e) :
      Decoded l (.error e) (l.filled name none none)
  | description (name url : Option String) (e : Exc)
      (hname : env.readMember root "name" = .ok name) (hurl : env.readMember root "url" = .ok url)
      (h : env.readMember root "description" = .error e) :
      Decoded l (.error e) (l.filled name url none)
  | domains (name url description : Option String) (e : Exc)
      (hname : env.readMember root "name" = .ok name) (hurl : env.readMember root "url" = .ok url)
      (hdescription : env.readMember root "description" = .ok description)
      (h : readEntries env root = .error e) :
      Decoded l (.error e) (l.filled name url description)
  | entry (name url description : Option String) (before : List Json) (item : Json)
      (after : List Json) (e : Exc)
      (hname : env.readMember root "name" = .ok name) (hurl : env.readMember root "url" = .ok url)
      (hdescription : env.readMember root "description" = .ok description)
      (hentries : readEntries env root = .ok (before ++ item :: after))
      (hbefore : ∀ item ∈ before, ¬ EntryFails env item) (h : readEntry env item = .error e) :
      Decoded l (.error e) ((l.filled name url description).push (pushed env before))
  | done (name url description : Option String) (entries : List Json)
      (hname : env.readMember root "name" = .ok name) (hurl : env.readMember root "url" = .ok url)
      (hdescription : env.readMember root "description" = .ok description)
      (hentries : readEntries env root = .ok entries)
      (h : ∀ item ∈ entries, ¬ EntryFails env item) :
      Decoded l (.ok ()) ((l.filled name url description).push (pushed env entries))

theorem run_initFromJson (l : DomainList) :
    (initFromJson env root).run.run l =
      match env.readMember root "name" with
      | .error e => (.error e, l)
      | .ok name =>
        match env.readMember root "url" with
        | .error e => (.error e, l.filled name none none)
        | .ok url =>
          match env.readMember root "description" with
          | .error e => (.error e, l.filled name url none)
          | .ok description =>
            match readEntries env root with
            | .error e => (.error e, l.filled name url description)
            | .ok entries =>
              (pushEntries env entries).run.run (l.filled name url description) := by
  apply (run_member env root l "name" (fun name l => { l with name }) _).trans
  cases env.readMember root "name" with
  | error e => rfl
  | ok name =>
    apply (run_member env root _ "url" (fun url l => { l with url }) _).trans
    cases env.readMember root "url" with
    | error e => cases name <;> rfl
    | ok url =>
      apply (run_member env root _ "description"
        (fun description l => { l with description := some description }) _).trans
      cases env.readMember root "description" with
      | error e => cases name <;> cases url <;> rfl
      | ok description =>
        apply (run_domains env root _).trans
        cases name <;> cases url <;> cases description <;> rfl

theorem decoded (l : DomainList) {r : Except Exc Unit} {l' : DomainList}
    (hrun : (initFromJson env root).run.run l = (r, l')) : Decoded env root l r l' := by
  rw [run_initFromJson] at hrun
  cases hname : env.readMember root "name" with
  | error e =>
    rw [hname] at hrun
    cases hrun
    exact .name e hname
  | ok name =>
    rw [hname] at hrun
    cases hurl : env.readMember root "url" with
    | error e =>
      simp only [hurl] at hrun
      cases hrun
      exact .url name e hname hurl
    | ok url =>
      simp only [hurl] at hrun
      cases hdescription : env.readMember root "description" with
      | error e =>
        simp only [hdescription] at hrun
        cases hrun
        exact .description name url e hname hurl hdescription
      | ok description =>
        simp only [hdescription] at hrun
        cases hentries : readEntries env root with
        | error e =>
          simp only [hentries] at hrun
          cases hrun
          exact .domains name url description e hname hurl hdescription hentries
        | ok entries =>
          simp only [hentries] at hrun
          rcases run_pushEntries env entries (l.filled name url description) with
            ⟨hall, hpush⟩ | ⟨before, item, after, e, rfl, hall, hbad, hpush⟩
          · rw [hpush] at hrun
            cases hrun
            exact .done name url description entries hname hurl hdescription hentries hall
          · rw [hpush] at hrun
            cases hrun
            exact .entry name url description before item after e hname hurl hdescription
              hentries hall hbad

/-- Nothing that is read before the failure differs from what the object has. -/
def Unharmed (l : DomainList) : Prop :=
  ∀ name, env.readMember root "name" = .ok name → name.getD l.name = l.name ∧
    ∀ url, env.readMember root "url" = .ok url → url.getD l.url = l.url ∧
      ∀ description, env.readMember root "description" = .ok description →
        description.or l.description = l.description ∧
        ∀ before item after, readEntries env root = .ok (before ++ item :: after) →
          (∀ item ∈ before, ¬ EntryFails env item) → EntryFails env item →
            pushed env before = []

private theorem filled_eq_self_iff {l : DomainList} {name url description : Option String} :
    l.filled name url description = l ↔
      name.getD l.name = l.name ∧ url.getD l.url = l.url ∧
        description.or l.description = l.description := by
  cases l
  simp [filled]

private theorem push_filled_eq_self_iff {l : DomainList} {name url description : Option String}
    {ds : List Domain} : (l.filled name url description).push ds = l ↔
      l.filled name url description = l ∧ ds = [] := by
  cases l
  simp [filled, push, and_assoc]

private theorem entry_unique {before before' : List Json} {item item' : Json}
    {after after' : List Json} (heq : before ++ item :: after = before' ++ item' :: after')
    (hbefore : ∀ item ∈ before, ¬ EntryFails env item)
    (hbefore' : ∀ item ∈ before', ¬ EntryFails env item)
    (h : EntryFails env item) (h' : EntryFails env item') : before = before' := by
  induction before generalizing before' with
  | nil =>
    cases before' with
    | nil => rfl
    | cons b before' =>
      rw [List.nil_append, List.cons_append, List.cons.injEq] at heq
      exact absurd (heq.1 ▸ h) (hbefore' b List.mem_cons_self)
  | cons b before ih =>
    cases before' with
    | nil =>
      rw [List.nil_append, List.cons_append, List.cons.injEq] at heq
      exact absurd (heq.1 ▸ h') (hbefore b List.mem_cons_self)
    | cons b' before' =>
      rw [List.cons_append, List.cons_append, List.cons.injEq] at heq
      rw [heq.1, ih heq.2 (List.forall_mem_cons.1 hbefore).2 (List.forall_mem_cons.1 hbefore').2]

/-- When `init_from_json` raises, what it had read until then was stored, and the object is
as before exactly when that changed nothing. -/
theorem initFromJson_raises (l : DomainList) (e : Exc) (l' : DomainList)
    (hrun : (initFromJson env root).run.run l = (.error e, l')) :
    Decoded env root l (.error e) l' ∧ (l' = l ↔ Unharmed env root l) := by
  have hdecoded := decoded env root l hrun
  refine ⟨hdecoded, ?_⟩
  cases hdecoded with
  | name e h => simp [Unharmed, h]
  | url name e hname h =>
    rw [filled_eq_self_iff]
    simp [Unharmed, hname, h]
  | description name url e hname hurl h =>
    rw [filled_eq_self_iff]
    simp [Unharmed, hname, hurl, h]
  | domains name url description e hname hurl hdescription h =>
    rw [filled_eq_self_iff]
    simp [Unharmed, hname, hurl, hdescription, h]
  | entry name url description before item after e hname hurl hdescription hentries hbefore h =>
    rw [push_filled_eq_self_iff, filled_eq_self_iff]
    have hitem : EntryFails env item := ⟨e, h⟩
    have hpushed : pushed env before = [] ↔ ∀ before' item' after',
        before ++ item :: after = before' ++ item' :: after' →
          (∀ item ∈ before', ¬ EntryFails env item) → EntryFails env item' →
            pushed env before' = [] := by
      constructor
      · intro hnil before' item' after' heq hbefore' hitem'
        rwa [← entry_unique env heq hbefore hbefore' hitem hitem']
      · intro hall
        exact hall before item after rfl hbefore hitem
    simp [Unharmed, hname, hurl, hdescription, hentries, hpushed, and_assoc]

end

/-- A document with an entry that is no object, between two that are. -/
def tornDocument : Json :=
  .object [("name", .string "ads"), ("domains", .array
    [.object [("name", .string "a.example")], .int 5, .object [("name", .string "b.example")]])]

def tornList : DomainList := { name := "ads", domains := [{ name := "a.example" }] }

theorem run_tornDocument : (initFromJson (Env.ofTexts []) tornDocument).run.run {} =
    (.error (.std "in Json::Value::operator[](char const*)const: requires objectValue"),
      tornList) := rfl

theorem initFromJson_raises_torn :
    Decoded (Env.ofTexts []) tornDocument {}
        (.error (.std "in Json::Value::operator[](char const*)const: requires objectValue"))
        tornList ∧
      ¬ Unharmed (Env.ofTexts []) tornDocument {} := by
  obtain ⟨hdecoded, hiff⟩ :=
    initFromJson_raises (Env.ofTexts []) tornDocument {} _ tornList run_tornDocument
  have htorn : tornList ≠ {} := by decide
  exact ⟨hdecoded, fun hunharmed => htorn (hiff.mpr hunharmed)⟩

/-- A decoder that raises can leave some of the document in the object. -/
theorem initFromJson_torn :
    ¬ ∀ (env : Env) (root : Json) (l : DomainList) (e : Exc) (l' : DomainList),
      (initFromJson env root).run.run l = (.error e, l') →
        l'.name = l.name ∧ l'.url = l.url ∧ l'.description = l.description ∧
          l'.domains = l.domains := by
  intro h
  have hname := (h (Env.ofTexts []) tornDocument {} _ tornList run_tornDocument).1
  revert hname
  decide

/-! ## Round trip -/

/-- A list that was written is read back with its name, url and description and with the names
that are valid; what was read is then written and read back as it is. -/
theorem decode_toJson (env : Env) (lst : DomainList) :
    ∃ got : DomainList, (initFromJson env (lst.toJson .null)).run.run {} = (.ok (), got) ∧
      got.name = lst.name ∧ got.url = lst.url ∧
      got.description = some (lst.description.getD "") ∧
      got.domains.map (·.name) = (lst.domains.map (·.name)).filter env.isValid ∧
      (initFromJson env (got.toJson .null)).run.run {} = (.ok (), got) := by
  refine ⟨_, initFromJson_toJson env lst, rfl, rfl, rfl, ?_, ?_⟩
  · rw [List.map_map, List.filter_map]
    rfl
  · rw [initFromJson_toJson]
    simp [List.filter_map, Function.comp_def]

end DomainList

end DblService
