import DblService.Launch
import DblService.Policy.Performed
import DblService.Policy.Requests

/-!
# From the requests to the proxy

A round of `main` opens the database anew, starts it and lets the back end write the
configuration of the DNS proxy.  What the clients asked for in the rounds before is what the
file says.
-/

namespace DblService

open Framework Session

namespace Proxy

/-- `DB::init`, and the `create_config` that `Service::configure` calls. -/
def configure (settings : Settings) (files : Files) (asctime : String) (entries : ConfigEntries)
    (proxy : Proxy) : FileCode Unit := do
  FileCode.lift DB.init
  (proxy.backEnd settings).createConfigFile files settings.toProxyOptions asctime entries
    (DnsProxy.create settings.toConfig)

private theorem within_active_iff {P : Policy} {m : String} :
    P.Within (fun a => a.active = true) m ↔ P.Blocks m ∨ P.Allows m := by
  constructor
  · rintro ⟨list, a, hown, hgroup, hactive⟩
    cases hw : a.isWhitelist with
    | false => exact .inl ⟨list, a, hown, hgroup, hactive, hw⟩
    | true => exact .inr ⟨list, a, hown, hgroup, hactive, hw⟩
  · rintro (⟨list, a, hown, hgroup, hactive, _⟩ | ⟨list, a, hown, hgroup, hactive, _⟩)
    · exact ⟨list, a, hown, hgroup, hactive⟩
    · exact ⟨list, a, hown, hgroup, hactive⟩

private theorem mem_activeNames_policy {db : Db} {m : String} :
    m ∈ DnsProxy.activeNames db ↔ db.policy.Blocks m ∨ db.policy.Allows m := by
  rw [DnsProxy.mem_activeNames, ← within_active_iff, Db.policy_within]
  rfl

variable {settings : Settings} {files : Files} {proxy : Proxy}

/-- A round that nothing disturbs writes the names of the policy in the file it finds. -/
theorem exec_configure (env : Env) (asctime : String) (entries : ConfigEntries)
    (hgenerate : settings.toProxyOptions.dnsProxyGenerateConfig = true)
    (hopened : ¬ BackEnd.Refuses files settings.toProxyOptions)
    (hloaded : ¬ (proxy.backEnd settings).LacksTemplate files settings.toProxyOptions)
    {d : Disk} (hwritable : d.writable (proxy.configPath settings) = true) (db : Db) :
    ∃ names s', FileCode.exec Store.handle (proxy.configure settings files asctime entries) d
        (Store.free ⟨db, none⟩) =
        some ((.ok (), d.put (proxy.configPath settings)
          ((proxy.backEnd settings).fileText files settings.toProxyOptions asctime entries
            (DnsProxy.create settings.toConfig) names)), s') ∧
      names.Nodup ∧ ∀ m, m ∈ names ↔ db.policy.Blocks m ∨ db.policy.Allows m := by
  have hpath : proxy.configPath settings =
      (proxy.backEnd settings).configFilePath settings.toProxyOptions := if_pos hgenerate
  have hquiet : PolicyOp.Done env .restart (Store.free ⟨db, none⟩) :=
    PolicyOp.done_restart (Store.free_isFree ⟨db, none⟩) rfl
  obtain ⟨s₁, hstart, hidle, hpolicy⟩ := hquiet
  obtain ⟨q, s₂, hrestart, hdone⟩ :=
    PolicyOp.exec_restart env (s := Store.free ⟨db, none⟩) rfl rfl
  cases hstart.symm.trans hrestart
  have hinit : (Store.free ⟨db, none⟩).exec DB.init = some (.ok (), s₁) :=
    PolicyOp.exec_init_of_restart hstart
  have hfree : s₁.ambient.faults = [] := PolicyOp.faults_of_exec rfl hstart
  have hfile : ∃ r d' s', FileCode.exec Store.handle
      ((proxy.backEnd settings).createConfigFile files settings.toProxyOptions asctime entries
        (DnsProxy.create settings.toConfig)) d s₁ = some ((r, d'), s') ∧
      (proxy.backEnd settings).Created files settings.toProxyOptions asctime entries
        (DnsProxy.create settings.toConfig) d s₁ r d' s' :=
    (proxy.backEnd settings).exec_createConfigFile hgenerate d hdone.released
  obtain ⟨r, d', s', hrun, hcreated⟩ := hfile
  cases hcreated with
  | refused _ hrefuses _ => exact absurd hrefuses hopened
  | lost _ _ hlacks _ => exact absurd hlacks hloaded
  | written rows _ _ _ hc _ =>
    obtain ⟨rfl, _⟩ := hc.of_quiet (Ambient.quiet_of_no_faults hfree _)
    rw [hpath] at hwritable ⊢
    rw [if_pos hwritable] at hrun
    refine ⟨DnsProxy.activeNames s₁.conn.view, s', ?_, DnsProxy.activeNames_nodup _, ?_⟩
    · rw [configure, FileCode.exec_bind, FileCode.exec_lift]
      change Option.bind (Option.map _ ((Store.free ⟨db, none⟩).exec DB.init)) _ = _
      rw [hinit]
      exact hrun
    · intro m
      have hnames : ¬ PolicyOp.restart.Names env m := id
      have hsame : Registry.SameFor m db.policy s₁.conn.file.policy := by
        rw [hpolicy]
        exact PolicyOp.sameFor_effect hnames fun _ _ => id
      rw [mem_activeNames_policy, Connection.view_of_idle hidle]
      exact or_congr hsame.within hsame.within

end Proxy

def Settings.generating : Settings
  | .dnsProxyGenerateConfig => true
  | field => Settings.unix field

namespace Service

/-- Whatever clients send on however many connections, and whatever fails meanwhile: the next
round that nothing disturbs writes, whichever back end it has, a file with the records of exactly
the names that the operations of the authenticated connections left in active lists. -/
theorem requests_reach_proxy (env : Env) (config : Config) (es : List Event) (w : Service)
    (proxy : Proxy) (settings : Settings) (files : Files) (asctime : String)
    (entries : ConfigEntries) (d : Disk)
    (hgenerate : settings.toProxyOptions.dnsProxyGenerateConfig = true)
    (hopened : ¬ BackEnd.Refuses files settings.toProxyOptions)
    (hloaded : ¬ (proxy.backEnd settings).LacksTemplate files settings.toProxyOptions)
    (hwritable : d.writable (proxy.configPath settings) = true) :
    let file := (runEvents (step env config) es w).2.db.file
    (∃ answers, Explains (fun x => PolicyOp.Outcome env x.1)
        (visible (step env config) (asks env) es w) answers w.db.file.policy file.policy) ∧
      ∃ names s', FileCode.exec Store.handle (proxy.configure settings files asctime entries) d
          (Store.free ⟨file, none⟩) =
          some ((.ok (), d.put (proxy.configPath settings)
            ((proxy.backEnd settings).fileText files settings.toProxyOptions asctime entries
              (DnsProxy.create settings.toConfig) names)), s') ∧
        names.Nodup ∧ ∀ m, m ∈ names ↔ file.policy.Blocks m ∨ file.policy.Allows m := by
  intro file
  exact ⟨explains_asked env config es w,
    Proxy.exec_configure env asctime entries hgenerate hopened hloaded hwritable file⟩

/-- A name that is blocked by a client with the password, for a proxy of the system. -/
theorem requests_reach_proxy_block :
    let env := Env.ofTexts blockTexts
    let w : Service :=
      { db := ⟨Db.secured, none⟩, connections := [⟨⟨.zero⟩, false⟩, ⟨⟨.zero⟩, true⟩] }
    let es : List Event := [.request 0 "block ads" {} {}, .request 1 "block b" {} {}]
    let settings := Settings.generating
    let d : Disk := .holding "old"
    let file := (runEvents (step env {}) es w).2.db.file
    file.policy.owner "b" = some "CUSTOM" ∧
    (∃ answers, Explains (fun x => PolicyOp.Outcome env x.1)
        (visible (step env {}) (asks env) es w) answers w.db.file.policy file.policy) ∧
      ∃ names s', FileCode.exec Store.handle
          (Proxy.unbound.configure settings .everywhere "" []) d (Store.free ⟨file, none⟩) =
          some ((.ok (), d.put (Proxy.unbound.configPath settings)
            ((Proxy.unbound.backEnd settings).fileText .everywhere
              settings.toProxyOptions "" [] (DnsProxy.create settings.toConfig) names)),
            s') ∧
        names.Nodup ∧ ∀ m, m ∈ names ↔ file.policy.Blocks m ∨ file.policy.Allows m := by
  intro env w es settings d file
  refine ⟨by decide +kernel, requests_reach_proxy env {} es w .unbound settings .everywhere ""
    [] d rfl ?_ ?_ rfl⟩
  · unfold BackEnd.Refuses
    decide +kernel
  · rintro ⟨_, habsent⟩
    cases habsent

end Service

end DblService
