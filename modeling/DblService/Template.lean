import DblService.DnsConfig
import DblService.Framework.Substitution
import Mathlib.Data.List.Pairwise

/-!
# Rendering a template

`Template::render` replaces one key after the other, in the order in which an `unordered_map` is
iterated.
-/

namespace DblService

open Framework

namespace Template

/-- What is replaced for an entry, and by what. -/
def word (entry : String × String) : List Char × List Char :=
  ('$' :: entry.1.toList, entry.2.toList)

def words (values : ConfigEntries) : List (List Char × List Char) := values.map word

/-- Every `$KEY` of the template is replaced by its value, all at the same time. -/
def replaced (content : String) (values : ConfigEntries) : String :=
  String.ofList (simultaneous (words values) content.toList)

/-- Names of keys as the configuration uses them. -/
structure KeyNames (names : List String) : Prop where
  ne : ∀ k ∈ names, k ≠ ""
  plain : ∀ k ∈ names, '$' ∉ k.toList
  apart : names.Pairwise fun k l => ¬ k.toList <+: l.toList ∧ ¬ l.toList <+: k.toList

private theorem toList_render (content : String) (values : ConfigEntries) :
    (render content values).toList =
      (words values).foldl (fun text v => replaceAll v.1 v.2 0 text) content.toList := by
  induction values generalizing content with
  | nil => rfl
  | cons v values ih =>
    have hne : "$" ++ v.1 ≠ "" := by simp
    have hword : ("$" ++ v.1).toList = '$' :: v.1.toList := by simp
    have hrender : render content (v :: values) =
        render (content.replace ("$" ++ v.1) v.2) values := rfl
    rw [hrender, ih, toList_replace hne, hword]
    rfl

private theorem words_fst (values : ConfigEntries) :
    (words values).map Prod.fst = (values.map Prod.fst).map fun k => '$' :: k.toList := by
  simp [words, word]

theorem KeyNames.nodup {values : ConfigEntries} (h : KeyNames (values.map Prod.fst)) :
    ((words values).map Prod.fst).Nodup := by
  rw [words_fst, List.Nodup, List.pairwise_map]
  apply h.apart.imp
  intro k l hkl heq
  rw [List.cons.injEq] at heq
  rw [heq.2] at hkl
  exact hkl.1 (List.prefix_refl _)

private theorem KeyNames.eq_of_prefix {names : List String} (h : KeyNames names) {k l : String}
    (hk : k ∈ names) (hl : l ∈ names) (hextends : k.toList <+: l.toList) : k = l := by
  have hsymm : Std.Symm fun k l : String =>
      ¬ k.toList <+: l.toList ∧ ¬ l.toList <+: k.toList := ⟨fun _ _ hkl => hkl.symm⟩
  by_contra hne
  exact (h.apart.forall hk hl hne).1 hextends

private theorem words_ne (values : ConfigEntries) : ∀ v ∈ words values, v.1 ≠ [] := by
  intro v hv
  obtain ⟨entry, _, rfl⟩ := List.mem_map.1 hv
  exact List.cons_ne_nil _ _

/-- The text does not depend on the order where no key that is still to be replaced turns up
in what is replaced already. -/
theorem render_eq_replaced (content : String) (values : ConfigEntries)
    (hkeys : KeyNames (values.map Prod.fst)) (h : Confined (words values) content.toList)
    (order : ConfigEntries) (horder : order.Perm values) :
    render content order = replaced content values := by
  have hperm : (words order).Perm (words values) := horder.map word
  rw [← String.toList_inj, toList_render, replaced, String.toList_ofList]
  exact foldl_replaceAll_eq_simultaneous hkeys.nodup (words_ne values) h hperm

private theorem marked_words {content : String} {values : ConfigEntries}
    (hkeys : KeyNames (values.map Prod.fst)) (hvalues : ∀ v ∈ values, '$' ∉ v.2.toList)
    (hcontent : ∀ c, .literal c ∈ pieces (words values) 0 content.toList → c ≠ '$') :
    Marked '$' (words values) content.toList := by
  constructor
  · intro v hv
    obtain ⟨entry, hentry, rfl⟩ := List.mem_map.1 hv
    exact ⟨entry.1.toList, rfl, hkeys.plain _ (List.mem_map_of_mem hentry)⟩
  · intro v hv w hw hextends
    obtain ⟨entry, hentry, rfl⟩ := List.mem_map.1 hv
    obtain ⟨other, hother, rfl⟩ := List.mem_map.1 hw
    have hsame := hkeys.eq_of_prefix (List.mem_map_of_mem hentry) (List.mem_map_of_mem hother)
      ((List.prefix_cons_inj '$').1 hextends)
    exact congrArg (fun k : String => '$' :: k.toList) hsame
  · intro v hv
    obtain ⟨entry, hentry, rfl⟩ := List.mem_map.1 hv
    exact hvalues entry hentry
  · exact hcontent

private theorem confined_of_plain {content : String} {values : ConfigEntries}
    (hkeys : KeyNames (values.map Prod.fst)) (hvalues : ∀ v ∈ values, '$' ∉ v.2.toList)
    (hcontent : ∀ c, .literal c ∈ pieces (words values) 0 content.toList → c ≠ '$') :
    Confined (words values) content.toList :=
  (marked_words hkeys hvalues hcontent).confined

private theorem keyNames_generateConfig (options : ProxyOptions) (pidfile asctime : String) :
    KeyNames ((options.generateConfig
      (ConfigEntries.setValue [("PIDFILE", pidfile)] "GENERATION_TIME" asctime)).map Prod.fst) := by
  have hnames : (options.generateConfig
      (ConfigEntries.setValue [("PIDFILE", pidfile)] "GENERATION_TIME" asctime)).map Prod.fst =
        ["PIDFILE", "GENERATION_TIME", "DIRECTORY", "USER", "CHROOT", "LOGFILE", "PORT"] := by
    simp [ProxyOptions.generateConfig, ConfigEntries.setValue]
  rw [hnames]
  exact ⟨by decide, by decide, by decide⟩

def programEntries : ConfigEntries :=
  ({ baseDir := "/srv" } : ProxyOptions).generateConfig
    (ConfigEntries.setValue [("PIDFILE", "/run/proxy.pid")] "GENERATION_TIME" "now")

theorem render_programEntries :
    render "$USER:$PORT" programEntries.reverse = replaced "$USER:$PORT" programEntries := by
  have hkeys : KeyNames (programEntries.map Prod.fst) :=
    keyNames_generateConfig { baseDir := "/srv" } "/run/proxy.pid" "now"
  have hentries : programEntries = [("PIDFILE", "/run/proxy.pid"), ("GENERATION_TIME", "now"),
      ("DIRECTORY", "/srv"), ("USER", "unbound"), ("CHROOT", ""),
      ("LOGFILE", "dbsblocker-proxy.log"), ("PORT", "53")] := by
    decide +kernel
  apply render_eq_replaced "$USER:$PORT" programEntries hkeys
  · apply confined_of_plain hkeys
    · rw [hentries]
      decide +kernel
    · rw [hentries]
      intro c hc
      have hpieces : pieces (words [("PIDFILE", "/run/proxy.pid"), ("GENERATION_TIME", "now"),
          ("DIRECTORY", "/srv"), ("USER", "unbound"), ("CHROOT", ""),
          ("LOGFILE", "dbsblocker-proxy.log"), ("PORT", "53")]) 0 "$USER:$PORT".toList =
            [.key "$USER".toList "unbound".toList, .literal ':',
              .key "$PORT".toList "53".toList] := by
        rfl
      rw [hpieces] at hc
      simp at hc
      rw [hc]
      decide
  · exact List.reverse_perm _

def portEntries (user : String) : ConfigEntries := [("USER", user), ("PORT", "53")]

private theorem keyNames_portEntries (user : String) :
    KeyNames ((portEntries user).map Prod.fst) := by
  have hnames : (portEntries user).map Prod.fst = ["USER", "PORT"] := rfl
  rw [hnames]
  exact ⟨by decide, by decide, by decide⟩

private theorem render_eq_ofList (content : String) (values : ConfigEntries) :
    render content values =
      String.ofList
        ((words values).foldl (fun text v => replaceAll v.1 v.2 0 text) content.toList) := by
  rw [← toList_render, String.ofList_toList]

/-- A value that contains a key, and an empty one that joins a dollar sign with what follows. -/
theorem render_order :
    render "$USER" (portEntries "$PORT") = "53" ∧
      render "$USER" (portEntries "$PORT").reverse = "$PORT" ∧
      replaced "$USER" (portEntries "$PORT") = "$PORT" ∧
      render "$$USERPORT" (portEntries "") = "53" ∧
      render "$$USERPORT" (portEntries "").reverse = "$PORT" ∧
      replaced "$$USERPORT" (portEntries "") = "$PORT" ∧
      ¬ ∀ (content : String) (values order : ConfigEntries), KeyNames (values.map Prod.fst) →
        order.Perm values → render content order = replaced content values := by
  have hvalue : render "$USER" (portEntries "$PORT") = "53" := by
    rw [render_eq_ofList]
    decide
  have hreplaced : replaced "$USER" (portEntries "$PORT") = "$PORT" := by decide
  refine ⟨hvalue, ?_, hreplaced, ?_, ?_, by decide, ?_⟩
  · rw [render_eq_ofList]
    decide
  · rw [render_eq_ofList]
    decide
  · rw [render_eq_ofList]
    decide
  · intro h
    have heq := h "$USER" (portEntries "$PORT") (portEntries "$PORT")
      (keyNames_portEntries "$PORT") (List.Perm.refl _)
    rw [hvalue, hreplaced] at heq
    exact absurd heq (by decide)

end Template

end DblService
