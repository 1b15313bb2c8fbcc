import TypeBridge.Adapter.Descriptor
import TypeBridge.Proofs.LiteralTexts

/-!
# Descriptors as text

A descriptor holds everything about a recipe but what it visits, and its text determines it: two
recipes have the same descriptor text only if they agree on their names, description and options.
-/

namespace TypeBridge

open Script (Literal)

namespace OptionType

theorem isPlain_descriptor (type : OptionType) : type.descriptor.IsPlain := by
  have texts : ∀ values : List String, Literal.ArePlain (values.map .text) := by
    intro values
    induction values with
    | nil => trivial
    | cons value values ih => exact ⟨trivial, ih⟩
  induction type with
  | string | number | boolean => exact ⟨by decide, trivial, trivial⟩
  | enum values => exact ⟨by decide, trivial, by decide, texts values, trivial⟩
  | list element ih => exact ⟨by decide, trivial, by decide, ih, trivial⟩
  | host name => exact ⟨by decide, trivial, by decide, trivial, trivial⟩

theorem descriptor_inj {type other : OptionType} (same : type.descriptor = other.descriptor) :
    type = other := by
  induction type generalizing other with
  | list element ih =>
    cases other with
    | list element' => simpa [descriptor] using ih (by simpa [descriptor] using same)
    | _ => simp [descriptor] at same
  | enum values =>
    cases other with
    | enum values' =>
      have texts : values.map Literal.text = values'.map Literal.text := by
        simpa [descriptor] using same
      exact congrArg enum ((List.map_inj_right fun _ _ => Literal.text.inj).1 texts)
    | _ => simp [descriptor] at same
  | host name =>
    cases other with
    | host name' => simpa [descriptor] using same
    | _ => simp [descriptor] at same
  | string | number | boolean => cases other <;> simp_all [descriptor]

end OptionType

namespace OptionSchema

theorem isPlain_descriptor (option : OptionSchema) : option.descriptor.IsPlain := by
  have flag : (Literal.raw (toString option.required)).IsPlain := by
    cases option.required
    · exact .inr rfl
    · exact .inl rfl
  have last : Literal.ArePlainProperties
      [("required", .raw (toString option.required)), ("valueType", option.type.descriptor)] :=
    ⟨by decide, flag, by decide, option.type.isPlain_descriptor, trivial⟩
  unfold descriptor
  cases option.example? with
  | none => exact ⟨by decide, trivial, by decide, trivial, by decide, trivial, last⟩
  | some text =>
    exact ⟨by decide, trivial, by decide, trivial, by decide, trivial, by decide, trivial, last⟩

theorem descriptor_inj {option other : OptionSchema}
    (same : option.descriptor = other.descriptor) : option = other := by
  obtain ⟨name, type, displayName, description, example?, required⟩ := option
  obtain ⟨name', type', displayName', description', example?', required'⟩ := other
  have flags : toString required = toString required' → required = required' := by
    cases required <;> cases required' <;> decide
  cases example? with
  | none =>
    cases example?' with
    | some text' => simp [descriptor] at same
    | none =>
      simp only [descriptor, Option.toList_none, List.map_nil, List.append_nil, List.cons_append,
        List.nil_append, Literal.object.injEq, List.cons.injEq, Prod.mk.injEq, true_and,
        Literal.text.injEq, Literal.raw.injEq, and_true] at same
      obtain ⟨rfl, rfl, rfl, flag, typed⟩ := same
      rw [flags flag, OptionType.descriptor_inj typed]
  | some text =>
    cases example?' with
    | none => simp [descriptor] at same
    | some text' =>
      simp only [descriptor, Option.toList_some, List.map_cons, List.map_nil, List.cons_append,
        List.nil_append, Literal.object.injEq, List.cons.injEq, Prod.mk.injEq, true_and,
        Literal.text.injEq, Literal.raw.injEq, and_true] at same
      obtain ⟨rfl, rfl, rfl, rfl, flag, typed⟩ := same
      rw [flags flag, OptionType.descriptor_inj typed]

end OptionSchema

namespace RecipeSchema

theorem isPlain_descriptor (recipe : RecipeSchema) : recipe.descriptor.IsPlain := by
  have options : ∀ options : List OptionSchema, Literal.ArePlain (options.map (·.descriptor)) := by
    intro options
    induction options with
    | nil => trivial
    | cons option options ih => exact ⟨option.isPlain_descriptor, ih⟩
  exact ⟨by decide, trivial, by decide, trivial, by decide, trivial, by decide,
    options recipe.options, trivial⟩

theorem descriptor_eq_iff {recipe other : RecipeSchema} :
    recipe.descriptor = other.descriptor ↔
      recipe.name = other.name ∧ recipe.displayName = other.displayName ∧
        recipe.description = other.description ∧ recipe.options = other.options := by
  have options : recipe.options.map (·.descriptor) = other.options.map (·.descriptor) ↔
      recipe.options = other.options :=
    List.map_inj_right fun _ _ => OptionSchema.descriptor_inj
  simp [descriptor, options]

/-- Wherever the descriptors of two recipes are written, their texts are the same exactly when the
recipes agree on name, display name, description and options.  Every quoted literal stands on one
line and is read back as the text that it quotes. -/
theorem descriptor_texts_faithful :
    (∀ (page : Page) (front back : String) (recipe other : RecipeSchema),
      (page.write (recipe.descriptor.fragment front back)).text =
          (page.write (other.descriptor.fragment front back)).text ↔
        recipe.name = other.name ∧ recipe.displayName = other.displayName ∧
          recipe.description = other.description ∧ recipe.options = other.options) ∧
    ∀ text : String, ('\n' ∉ (Text.quoted text).toList ∧ '\r' ∉ (Text.quoted text).toList) ∧
      Text.unquoted? (Text.quoted text) = some text := by
  refine ⟨fun page front back recipe other => ?_, fun text =>
    ⟨Text.lineBreak_notMem_quoted text, Text.unquoted?_quoted text⟩⟩
  rw [← descriptor_eq_iff]
  refine ⟨fun same => ?_, fun same => by rw [same]⟩
  have texts := congrArg String.toList same
  simp only [Literal.write_fragment, Page.append, String.toList_append, List.append_assoc] at texts
  have written := List.append_cancel_left (List.append_cancel_left (List.append_cancel_left texts))
  exact (Literal.written_append_inj _ _ recipe.isPlain_descriptor other.isPlain_descriptor
    written).1

end RecipeSchema

end TypeBridge
