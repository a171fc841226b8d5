import ReactiveTemplate.Proofs.Component.Built
/-!
# Injected — the names in front of a script

References and client parameters are declared in front of the script of a component.
-/
set_option linter.all false

namespace ReactiveTemplate.Component
open List
open Markup (Tree Element Attribute)
open Binding (gives_bind gives_orFault gives_lift gives_modifyPayload passes_nodes)

/-- The name of the client parameter that an attribute declares. -/
def clientName? (a : Attribute) : Option String := (Text.dropStart? a.name "client-param-").map lowerCamel

/-! ## Client parameters -/

lemma name_of_read {name value : String} {isClient : Bool} {p : Param} (h : Param.read name value isClient = .ok p) :
    p.name = name := by
  unfold Param.read at h
  simp only at h
  repeat' split at h
  all_goals first | cases h; rfl | cases h

lemma name_of_resolve {server : List Param} {p q : Param} (h : p.resolve server = .ok q) : q.name = p.name := by
  unfold Param.resolve at h
  repeat' split at h
  all_goals first | cases h; rfl | cases h

lemma client_add {ps ps' : Params} {a : Attribute} (h : ps.add a = .ok ps') :
    ps'.client.map (·.name) = ps.client.map (·.name) ++ (clientName? a).toList := by
  unfold Params.add at h
  unfold clientName?
  cases hraw : Text.dropStart? a.name "client-param-" with
  | some raw =>
    simp only [hraw] at h
    split at h
    · obtain ⟨p, hread, rfl⟩ := exists_ok_of_map h
      simp [name_of_read hread]
    · cases h
  | none =>
    simp only [hraw] at h
    split at h
    · obtain ⟨p, -, rfl⟩ := exists_ok_of_map h
      simp
    · cases h
      simp

lemma client_foldlM : ∀ {as : List Attribute} {ps ps' : Params}, as.foldlM Params.add ps = .ok ps' →
    ps'.client.map (·.name) = ps.client.map (·.name) ++ as.filterMap clientName?
  | [], ps, ps', h => by
    cases h
    simp
  | a :: as, ps, ps', h => by
    rw [foldlM_cons] at h
    obtain ⟨ps₁, hadd, h⟩ := exists_ok_of_bind h
    rw [client_foldlM h, client_add hadd, append_assoc, filterMap_cons]
    cases clientName? a <;> rfl

lemma client_mapM {server : List Param} : ∀ {ps qs : List Param}, ps.mapM (Param.resolve server) = .ok qs →
    qs.map (·.name) = ps.map (·.name)
  | [], qs, h => by
    cases h
    rfl
  | p :: ps, qs, h => by
    rw [mapM_cons] at h
    obtain ⟨q, hp, h⟩ := exists_ok_of_bind h
    obtain ⟨qs', hps, h⟩ := exists_ok_of_bind h
    cases h
    rw [map_cons, map_cons, name_of_resolve hp, client_mapM hps]

lemma client_ofElement {e : Element} {ps : Params} (h : Params.ofElement e = .ok ps) :
    ps.client.map (·.name) = e.attributes.filterMap clientName? := by
  unfold Params.ofElement at h
  obtain ⟨ps₁, hread, h⟩ := exists_ok_of_bind h
  obtain ⟨client, hclient, h⟩ := exists_ok_of_bind h
  cases h
  exact (client_mapM hclient).trans (client_foldlM hread)

lemma client_ofHead {e : Element} {head : Head} (h : Head.ofElement e = .ok head) :
    head.params.client.map (·.name) = e.attributes.filterMap clientName? := by
  unfold Head.ofElement at h
  split at h
  · cases h
  · obtain ⟨params, hparams, h⟩ := exists_ok_of_bind h
    obtain ⟨u, -, h⟩ := exists_ok_of_bind h
    cases h
    exact client_ofElement hparams

/-! ## The checks -/

lemma not_mem_of_checkCollision {names : List String} {params : Params} {u : Unit}
    (h : checkCollision names params = .ok u) : ∀ x ∈ names, x ∉ params.client.map (·.name) := by
  unfold checkCollision at h
  split at h
  · cases h
  · rename_i hnone
    intro x hx hclient
    obtain ⟨p, hp, rfl⟩ := mem_map.1 hclient
    exact find?_eq_none.1 hnone p hp (contains_iff_mem.2 hx)

lemma not_mem_of_hooksOf {script : String} {injected hooks : List String} (h : hooksOf script injected = .ok hooks) :
    ∃ program, Script.parseProgram? script = some program ∧
      ∀ x ∈ injected, x ∉ Script.Node.scopeNames program.root.statements := by
  unfold hooksOf at h
  split at h
  · cases h
  · rename_i program hprogram
    simp only at h
    split at h
    · cases h
    · rename_i hnone
      exact ⟨program, hprogram, fun x hx hdeclared =>
        find?_eq_none.1 hnone x hdeclared (contains_iff_mem.2 hx)⟩

variable {file : String} {sequence : Sequence} {assetOf : String → Option String} {e : Element} {position : Position}
  {children : List Tree} {built : Built}

/-- **The names in front of a script.**  In every component that is built, references have distinct names, none of them is
that of a client parameter, and the script declares none of either.  So each of these names is declared once exactly if no
two attributes of the element give a client parameter the same name. -/
theorem build_injected (h : build file sequence assetOf e position children = .ok built) :
    ∃ parts program, Parts.ofChildren file children = .ok parts ∧
      Script.parseProgram? parts.scriptText = some program ∧
      built.injected = built.references ++ e.attributes.filterMap clientName? ∧
      built.references.Nodup ∧ (∀ x ∈ built.references, x ∉ e.attributes.filterMap clientName?) ∧
      (∀ x ∈ built.injected, x ∉ Script.Node.scopeNames program.root.statements) ∧
      (built.injected.Nodup ↔ (e.attributes.filterMap clientName?).Nodup) := by
  obtain ⟨parts, binder, hparts, hhead, hrun, hpayload, -⟩ := build_cases h
  have hclient := client_ofHead hhead
  have hgives : Binding.Gives (bindTemplate file assetOf parts built.head) _ built.template binder := hrun
  simp only [bindTemplate, gives_bind, gives_orFault, gives_lift, gives_modifyPayload] at hgives
  obtain ⟨names, b₁, hnames, _, _, ⟨hcollision, rfl⟩, hooks, _, ⟨hhooks, rfl⟩, analysed, _,
    ⟨-, rfl⟩, _, _, rfl, hpass⟩ := hgives
  obtain ⟨-, -, hdistinct, _, -, rfl, hrefers⟩ := gives_references hnames nodup_nil
  have hreferences : built.references = names := by
    rw [Built.references, hpayload, (passes_nodes hpass).changes.extends.references]
    exact hrefers.names
  have hinjected : built.injected = built.references ++ e.attributes.filterMap clientName? := by
    rw [Built.injected, hclient]
  have hdisjoint : ∀ x ∈ built.references, x ∉ e.attributes.filterMap clientName? := by
    rw [hreferences, ← hclient]
    exact not_mem_of_checkCollision hcollision
  have hhooks' : hooksOf parts.scriptText built.injected = .ok hooks := by
    rw [Built.injected, hreferences]
    revert hhooks
    cases hooksOf parts.scriptText (names ++ built.head.params.client.map (·.name)) with
    | error fault => exact nofun
    | ok found =>
      intro hhooks
      cases hhooks
      rfl
  obtain ⟨program, hprogram, hdeclared⟩ := not_mem_of_hooksOf hhooks'
  have hnodup : built.references.Nodup := hreferences ▸ hdistinct
  refine ⟨parts, program, hparts, hprogram, hinjected, hnodup, hdisjoint, hdeclared, ?_⟩
  rw [hinjected, nodup_append]
  exact ⟨fun h => h.2.1, fun h => ⟨hnodup, h, fun x hx y hy heq => hdisjoint x hx (heq ▸ hy)⟩⟩

namespace Twins

def host (attributes : List String) : Element :=
  ⟨"component", ⟨"name", "name", "c", none⟩ :: attributes.map (fun a => ⟨a, a, "", none⟩)⟩

def result (attributes : List String) : Except Diagnostic Built :=
  build "" (.new "") (fun _ => none) (host attributes) {} Counter.content

end Twins

/-- Two parameters and a reference of the counter are declared once each. -/
theorem build_injected_once : ∃ built, Twins.result ["client-param-a-b", "client-param-c"] = .ok built ∧
    built.injected = ["box", "aB", "c"] ∧ built.injected.Nodup := by
  have h : (Twins.result ["client-param-a-b", "client-param-c"]).toOption.any
      (fun b => b.injected == ["box", "aB", "c"]) = true := by
    decide +kernel
  obtain ⟨built, hresult, h⟩ := exists_ok_of_any h
  obtain ⟨-, -, -, -, -, -, -, -, hnodup⟩ := build_injected hresult
  exact ⟨built, hresult, beq_iff_eq.1 h, hnodup.2 (by decide +kernel)⟩

/-- Two spellings of one parameter declare it twice. -/
theorem build_injected_twice :
    (Twins.result ["client-param-a-b", "client-param-a_b"]).toOption.map (·.injected) = some ["box", "aB", "aB"] := by
  decide +kernel

end ReactiveTemplate.Component
