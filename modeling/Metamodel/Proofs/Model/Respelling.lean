import Mathlib.Data.List.Nodup
import Metamodel.Proofs.Model.Attempts
import Metamodel.Proofs.TypeRef.QualifiedName

/-!
# Properties whose classes are cut differently

Types are compared by their structure, so a class that is cut into package and name at another dot
makes another type. Still no model gets two attributes of one name for it: their types have one
token, and with it one field.

* `WellNamed.hasAttribute_eq_false`: an attribute of a name and a token keeps others out.
* `Reached.attachLast_of_sameClass`: how a second property is refused.
* `recognized_by_qualifiedName`: all that does not depend on the cut of a qualified name.
-/

namespace Metamodel

namespace Model

variable {config : Config} {m : Model} {p : Declaration} {a : Attribute} {parameter : Parameter}
  {rest : List Parameter}

/-- If the field of a name and a type belongs to an attribute of another type, there is none of that
name and type, since it would have the field as well. -/
theorem WellNamed.hasAttribute_eq_false (h : m.WellNamed) (ha : a ∈ m.attributes)
    {name : String} {type : TypeRef} (hfield : a.fieldName = Attribute.fieldNameFor name type)
    (hne : a.type ≠ type) : m.hasAttribute name type = false := by
  rw [hasAttribute, List.any_eq_false]
  intro b hb hfor
  simp only [Attribute.isFor, Bool.and_eq_true, decide_eq_true_eq] at hfor
  obtain ⟨rfl, rfl⟩ := hfor
  have hab : a = b := List.inj_on_of_nodup_map h.fieldNames_nodup ha hb
    (hfield.trans (h.fieldName_eq b hb).symm)
  exact hne (congrArg Attribute.type hab)

/-- A property is refused if there is an attribute of its name for the same class: for that
attribute if the types are equal, and otherwise for the field. -/
theorem Reached.attachLast_of_sameClass (hm : m.Reached) (ha : a ∈ m.attributes)
    (hp : p.parameters = parameter :: rest) (hname : a.name = attributeName p.name)
    (htype : a.type.SameClass parameter.type) (config : Config) :
    m.attachLast config p = .error
      (if a.type = parameter.type then .duplicateAttribute (toString m.generated) a.name a.type
      else .fieldNameCollision (toString m.generated) a.fieldName) := by
  have hfield : a.fieldName = Attribute.fieldNameFor a.name parameter.type := by
    rw [hm.wellNamed.fieldName_eq a ha, htype.fieldNameFor_eq]
  have hdefault : resolveDefault config p parameter.type = .ok none :=
    resolveDefault_of_not_primitive htype.primitive?_eq_none
  obtain ⟨b, hset, hbname, hbtype, hbfield⟩ : ∃ b, Attribute.ofSetter config p = .ok b ∧
      b.name = a.name ∧ b.type = parameter.type ∧ b.fieldName = a.fieldName :=
    ⟨_, Attribute.ofSetter_eq_ok.mpr ⟨parameter, rest, none, hp, hdefault, rfl⟩, hname.symm, rfl,
      by rw [hfield, hname]; rfl⟩
  have hcheck : m.attachment config p = m.checkAttribute b := by
    rw [attachment, hset]
    rfl
  rw [attachLast_eq, hcheck, checkAttribute, hbname, hbtype, hbfield]
  by_cases heq : a.type = parameter.type
  · have hthere : m.hasAttribute a.name parameter.type = true :=
      List.any_eq_true.mpr ⟨a, ha, by simp [Attribute.isFor, heq]⟩
    rw [if_pos heq, if_pos hthere, heq]
    rfl
  · have hnone := hm.wellNamed.hasAttribute_eq_false ha hfield heq
    have htaken : m.hasField a.fieldName = true := List.any_eq_true.mpr ⟨a, ha, by simp⟩
    rw [if_neg heq, if_neg (by simp [hnone]), if_pos htaken]
    rfl

end Model

/-- Configured names cannot tell two classes apart exactly if these have one qualified name,
wherever it is cut. Then they have one innermost name, are text types together and mark parameters
as nullable together. Marks of them are found together, and types with one in place of the other
have the same token and fields. On a model that is made by attempts and derivations, a property is
refused if there is an attribute of its name with such a type, for its field unless the types are
equal. -/
theorem recognized_by_qualifiedName :
    (∀ c d : ClassRef, (∀ configured, c.matchesName configured = d.matchesName configured) ↔
      c.qualifiedName = d.qualifiedName) ∧
    (∀ c d : ClassRef, c.qualifiedName = d.qualifiedName →
      c.simpleName = d.simpleName ∧
      ∀ config : Config, config.isTextType (.declared c) = config.isTextType (.declared d) ∧
        ∀ members others,
          config.isNullableMarker ⟨c, members⟩ = config.isNullableMarker ⟨d, others⟩) ∧
    (∀ p q : Declaration, List.Forall₂ Mark.SameName p.marks q.marks →
      ∀ configured, Option.Rel Mark.SameName (p.mark? configured) (q.mark? configured)) ∧
    (∀ s t : TypeRef, s.SameClass t →
      s.token = t.token ∧ ∀ name, Attribute.fieldNameFor name s = Attribute.fieldNameFor name t) ∧
    ∀ m : Model, m.Reached → ∀ a ∈ m.attributes, ∀ (config : Config) (p : Declaration)
      (parameter : Parameter) (rest : List Parameter), p.parameters = parameter :: rest →
        a.name = attributeName p.name → a.type.SameClass parameter.type →
          m.attachLast config p = .error
            (if a.type = parameter.type then
              .duplicateAttribute (toString m.generated) a.name a.type
            else .fieldNameCollision (toString m.generated) a.fieldName) := by
  refine ⟨fun c d => ClassRef.matchesName_congr_iff, fun c d h => ?_,
    fun p q h => Mark.find?_sameName h, fun s t h => ⟨h.token_eq, h.fieldNameFor_eq⟩,
    fun m hm a ha config p parameter rest hp hname htype =>
      hm.attachLast_of_sameClass ha hp hname htype config⟩
  exact ⟨ClassRef.simpleName_congr h,
    fun config => ⟨Config.isTextType_congr h, fun _ _ => Config.isNullableMarker_congr h⟩⟩

/-- The class `java.util.Map.Entry`, cut as a nested class. -/
def nestedEntry : ClassRef := ⟨"java.util", "Map.Entry"⟩

/-- The class `java.util.Map.Entry`, cut at its last dot. -/
def flatEntry : ClassRef := ⟨"java.util.Map", "Entry"⟩

/-- A setter of an array of entries, which has a mark of the class of entries too. -/
def setEntries (entry : ClassRef) : Declaration :=
  (Declaration.ofMethod ⟨"com.example.CardView"⟩ "setEntries"
    [⟨"value", .array (.declared entry), []⟩]).marked ⟨entry, [⟨"key", "1"⟩]⟩

/-- A card with entries. -/
def entriesCard : Model :=
  (Model.ofComponent .standard
    ((Declaration.ofClass "com.example" "CardView").extending "android.view.View")).attachOrKeep
      .standard (setEntries nestedEntry)

/-- The entries of a card cannot be attached once more under the other cut. -/
theorem recognized_by_qualifiedName_entries :
    nestedEntry ≠ flatEntry ∧ nestedEntry.qualifiedName = flatEntry.qualifiedName ∧
      nestedEntry.simpleName = flatEntry.simpleName ∧
      Option.Rel Mark.SameName ((setEntries nestedEntry).mark? "Entry")
        ((setEntries flatEntry).mark? "Entry") ∧
      (TypeRef.array (.declared nestedEntry)).token = (TypeRef.array (.declared flatEntry)).token ∧
      entriesCard.Reached ∧
      entriesCard.attachLast .standard (setEntries flatEntry) =
        .error (.fieldNameCollision "com.example.CardModel" "entries_EntryArray") := by
  have hname : nestedEntry.qualifiedName = flatEntry.qualifiedName := by decide
  have hmarks : List.Forall₂ Mark.SameName (setEntries nestedEntry).marks
      (setEntries flatEntry).marks := .cons ⟨hname, rfl⟩ .nil
  have htypes : (TypeRef.array (.declared nestedEntry)).SameClass (.array (.declared flatEntry)) :=
    .array (.named rfl rfl hname)
  have hreached : entriesCard.Reached := .attachOrKeep (.ofComponent _ _) _ _
  obtain ⟨a, ha, haname, hatype, hafield⟩ : ∃ a ∈ entriesCard.attributes,
      a.name = attributeName "setEntries" ∧ a.type = .array (.declared nestedEntry) ∧
        a.fieldName = "entries_EntryArray" := by decide +kernel
  have hgenerated : toString entriesCard.generated = "com.example.CardModel" := by decide +kernel
  obtain ⟨-, hclasses, hlookups, htokens, hrefusals⟩ := recognized_by_qualifiedName
  have hrefused := hrefusals entriesCard hreached a ha .standard (setEntries flatEntry) _ [] rfl
    haname (hatype ▸ htypes)
  rw [if_neg (by rw [hatype]; decide), hgenerated, hafield] at hrefused
  exact ⟨by decide, hname, (hclasses _ _ hname).1, hlookups _ _ hmarks "Entry",
    (htokens _ _ htypes).1, hreached, hrefused⟩

end Metamodel
