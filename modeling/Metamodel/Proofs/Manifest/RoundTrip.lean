import Metamodel.Manifest
import Metamodel.Proofs.Derivation.Default
import Metamodel.Proofs.Model.Form
import Metamodel.Proofs.Model.Overloads
import Metamodel.Proofs.Round.Emission

/-!
# Manifests, read back

The manifest of a round is a document within the limit of nesting whenever the candidates were read
from one: the type of an attribute stands as deep in the manifest as in the candidates, and all else
is nested less deeply. No default value is infinite, since a literal is refused if its number is. So
the models of the manifest are given back, up to what JSON makes of floating point numbers.

* `mem_attributes_localModel`: where the attributes of a model come from.
* `nesting_type_le`, `nesting_localModel_le`: how deeply the models of a round are nested.
* `decodeText_manifest`: the document of a round is decoded as its models.
* `manifest_given_back`: the manifest of a round is read as the models that the round reports.
-/

namespace Metamodel

open Json Json.Decoder

/-! ## Attributes of a round -/

namespace Round

variable {config : Config} {input : Candidates} {d : Declaration} {a : Attribute}

theorem mem_attributes_attachedModel {properties : List Declaration}
    (ha : a ∈ (attachedModel config properties d).attributes) :
    ∃ p ∈ properties, Attribute.ofSetter config p = .ok a := by
  rcases Model.mem_attributes_foldl_attachOrKeep ha with h | ⟨p, hp, hset⟩
  · cases h
  · exact ⟨p, (List.mem_filter.mp hp).1, hset⟩

/-- An attribute of a model is that of a property setter, or the overload of another one. -/
theorem mem_attributes_localModel (ha : a ∈ (localModel config input d).attributes) :
    (∃ p ∈ input.properties, Attribute.ofSetter config p = .ok a) ∨
      ∃ source : Attribute, a = source.overload config := by
  rw [localModel, addOwnResets_attributes, Model.synthesize_attributes, Model.overloads_eq] at ha
  rcases List.mem_append.mp ha with ha | ha
  · exact .inl (mem_attributes_attachedModel ha)
  · obtain ⟨source, -, rfl⟩ := List.mem_map.mp ha
    exact .inr ⟨source, rfl⟩

theorem defaultsFinite_localModel (config : Config) (input : Candidates) (d : Declaration) :
    (localModel config input d).DefaultsFinite := by
  intro a ha
  rcases mem_attributes_localModel ha with ⟨p, -, hset⟩ | ⟨source, rfl⟩
  · obtain ⟨parameter, rest, default, -, hdefault, rfl⟩ := Attribute.ofSetter_eq_ok.mp hset
    rintro v rfl
    exact (primitive_of_resolveDefault hdefault).2
  · simp [Attribute.overload, Attribute.markAccessors, Attribute.ofType]

/-! ## Nesting -/

variable {depth : Nat}

theorem nesting_type_le (hinput : input.toJson.nesting ≤ depth + 5) (hdepth : 1 ≤ depth)
    (ha : a ∈ (localModel config input d).attributes) : a.type.toJson.nesting ≤ depth := by
  rcases mem_attributes_localModel ha with ⟨p, hp, hset⟩ | ⟨source, rfl⟩
  · obtain ⟨parameter, rest, default, hparameters, -, rfl⟩ := Attribute.ofSetter_eq_ok.mp hset
    exact input.nesting_type_le hinput hp (hparameters ▸ List.mem_cons_self)
  · exact hdepth

theorem nesting_supertype_le (config : Config) (input : Candidates) (d : Declaration) :
    (localModel config input d).supertype.toJson.nesting ≤ 2 + 3 := by
  rw [localModel_eq]
  refine TypeRef.nesting_parameterized_le ?_ fun t ht => ?_
  · exact Nat.le_trans (ClassRef.nesting_toJson_le _) (by decide)
  · rw [List.mem_singleton.mp ht, TypeRef.toJson, nesting_singleton_le_succ]
    exact ClassRef.nesting_toJson_le _

theorem nesting_localModel_le (hinput : input.toJson.nesting ≤ depth + 5) (hdepth : 4 ≤ depth)
    (d : Declaration) : (localModel config input d).toJson.nesting ≤ depth + 3 := by
  have hsupertype := nesting_supertype_le config input d
  exact Model.nesting_toJson_le (by omega) (fun a ha => nesting_type_le hinput (by omega) ha) hdepth

end Round

/-! ## Documents -/

namespace Manifest

/-- Models that are taken one by one are held behind those that are held already. -/
theorem emitAll_emitter (held : Manifest) (models : List Model) :
    emitter.emitAll held models = (held ++ models, models, []) := by
  induction models generalizing held with
  | nil => simp [Emitter.emitAll]
  | cons m rest ih =>
    have he : emitter.emit held m = (held ++ [m], .ok ()) := rfl
    simp [Emitter.emitAll, he, ih]

/-- Whatever the manifest held before, after a round it holds the models of the round, and the round
reports these. -/
theorem run_emitter (config : Config) (held : Manifest) (input : Candidates) :
    (Round.run config emitter held input).1.models = (Round.process config input).models ∧
      (Round.run config emitter held input).2.2 = (Round.process config input).models := by
  obtain ⟨hstate, hmodels, -⟩ := Round.run_eq_emitAll config emitter held input
  rw [hmodels, hstate, emitAll_emitter]
  exact ⟨rfl, rfl⟩

/-- The members of a manifest. -/
def parts (models : Manifest) : List (String × Option Json) :=
  [("models", some (.array (models.map (·.toJson))))]

theorem toJson_eq (models : Manifest) : models.toJson = .object (present models.parts) := rfl

theorem read_text (models : Manifest) : read models.text = some models.toJson := by
  have hlist : WellFormed (.array (models.map (·.toJson))) :=
    wellFormed_array_map fun m _ => m.wellFormed_toJson
  exact read_pretty (.object (by simpa using hlist))

theorem nesting_toJson_le {models : Manifest} {depth : Nat}
    (h : ∀ m ∈ models, m.toJson.nesting ≤ depth) : (toJson models).nesting ≤ depth + 2 := by
  rw [toJson, nesting_singleton_le_succ, nesting_array_le_succ, List.forall_mem_map]
  exact h

/-- The records of a manifest are given back one by one, if the default values are. -/
theorem restores_models {models : Manifest}
    (h : ∀ m ∈ models, m.DefaultsFinite ∧ m.DefaultsReadBack) :
    (decodeList Model.ofJson).Restores (.array (models.map Model.toJson)) models :=
  .list fun m hm => Model.restores_toJson (h m hm).1 (h m hm).2

/-- A manifest is given back if the default values of its models are. -/
theorem restores_toJson {models : Manifest}
    (h : ∀ m ∈ models, m.DefaultsFinite ∧ m.DefaultsReadBack) :
    ofJson.Restores models.toJson models := by
  rw [toJson_eq]
  refine .record models.parts rfl (by decide) fun depth fields hfields => ?_
  exact (hfields _ List.mem_cons_self).required (restores_models h)

end Manifest

namespace Round

variable {config : Config} {input : Candidates} {m : Model}

theorem defaultsFinite_of_mem_process (hm : m ∈ (process config input).models) :
    m.DefaultsFinite := by
  rw [process_models] at hm
  obtain ⟨d, -, rfl⟩ := List.mem_map.mp hm
  exact defaultsFinite_localModel config input d

section Accepted

variable {text : String} (haccepted : Candidates.ofText? text = some input)
include haccepted

theorem nesting_of_mem_process (hm : m ∈ (process config input).models) :
    m.toJson.nesting ≤ nestingLimit - 2 := by
  rw [process_models] at hm
  obtain ⟨d, -, rfl⟩ := List.mem_map.mp hm
  exact nesting_localModel_le (Candidates.nesting_le_of_ofText? haccepted) (by decide) d

theorem nesting_manifest_le (config : Config) :
    (Manifest.toJson (process config input).models).nesting ≤ nestingLimit :=
  Manifest.nesting_toJson_le fun _ hm => nesting_of_mem_process haccepted hm

/-- The document of a round is decoded as its models, if the floating point numbers among the
default values are read back as themselves. -/
theorem decodeText_manifest (hnumbers : ∀ m ∈ (process config input).models, m.DefaultsReadBack) :
    decodeText Manifest.ofJson (Manifest.text (process config input).models) =
      some (process config input).models := by
  rw [decodeText, Manifest.read_text, Option.bind_some]
  exact Manifest.restores_toJson
    (fun m hm => ⟨defaultsFinite_of_mem_process hm, hnumbers m hm⟩) nestingLimit
    (nesting_manifest_le haccepted config)

end Accepted

/-- A round whose candidates were decoded from a text hands all its models to the manifest, and no
default value in them is infinite. The manifest is written as a document within the limit of
nesting, with the records of the models under its only key. They are decoded as the models, in
order, each alone as well as all together, if the floating point numbers among the default values
are read back as themselves. -/
theorem manifest_given_back (config : Config) (held : Manifest) {text : String}
    {input : Candidates} (haccepted : Candidates.ofText? text = some input) :
    let models := (run config Manifest.emitter held input).1.models
    let manifest := (run config Manifest.emitter held input).2.2
    models = (process config input).models ∧ (∀ m ∈ models, m.DefaultsFinite) ∧
    ∃ items : List Json,
      read manifest.text = some (.object [("models", .array items)]) ∧
      (Json.object [("models", .array items)]).nesting ≤ nestingLimit ∧
      ((∀ m ∈ models, m.DefaultsReadBack) →
        (∀ depth, nestingLimit - 2 ≤ depth → items.mapM (Model.ofJson depth) = some models) ∧
        decodeText Manifest.ofJson manifest.text = some models) := by
  obtain ⟨hmodels, hmanifest⟩ := Manifest.run_emitter config held input
  simp only [hmodels, hmanifest]
  refine ⟨trivial, fun m hm => defaultsFinite_of_mem_process hm,
    (process config input).models.map Model.toJson, Manifest.read_text _,
    nesting_manifest_le haccepted config, fun hnumbers => ⟨fun depth hdepth => ?_, ?_⟩⟩
  · have harray : (Json.array ((process config input).models.map Model.toJson)).nesting ≤
        depth + 1 := by
      rw [nesting_array_le_succ, List.forall_mem_map]
      exact fun m hm => Nat.le_trans (nesting_of_mem_process haccepted hm) hdepth
    exact Manifest.restores_models
      (fun m hm => ⟨defaultsFinite_of_mem_process hm, hnumbers m hm⟩) (depth + 1) harray
  · exact decodeText_manifest haccepted hnumbers

/-- A card with a price, which is `1.5` unless it is set. -/
def pricedRound : Candidates where
  components := [(Declaration.ofClass "com.example" "PriceView").extending "android.view.View"]
  properties :=
    [(Declaration.ofMethod ⟨"com.example.PriceView"⟩ "setPrice"
      [⟨"price", .primitive .double, []⟩]).marked
        ((Mark.ofName "com.airbnb.epoxy.ModelProp").withMember "doubleDefault" "1.5")]
  resets := []

theorem manifest_given_back_priced :
    Candidates.ofText? pricedRound.toJson.compact = some pricedRound ∧
      ((run .standard Manifest.emitter [] pricedRound).1.models.flatMap (·.attributes)).map
        (·.defaultValue) = [some (.double (.ofDecimal false 15 (-1)))] ∧
      decodeText Manifest.ofJson (run .standard Manifest.emitter [] pricedRound).2.2.text =
        some (run .standard Manifest.emitter [] pricedRound).1.models := by
  have haccepted : Candidates.ofText? pricedRound.toJson.compact = some pricedRound :=
    Candidates.ofText?_compact (by decide +kernel)
  obtain ⟨-, -, items, -, -, hback⟩ := manifest_given_back .standard [] haccepted
  exact ⟨haccepted, by decide +kernel, (hback (by decide +kernel)).2⟩

end Round

end Metamodel
