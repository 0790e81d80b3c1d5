import Mathlib
import RollupBoundary.Proofs.Configuration.Partial

/-!
# A configuration is read back from its document

The document of a configuration is the one of the value that spells it (`Configuration.toJson`), and
a value is read back from its document whatever it is.  What is left to show is that the value is
read as the configuration (`Configuration.ofJson?_toJson`).  It is the variation of itself that
leaves nothing out, adds nothing and keeps all members where they are, so this is a case of what is
known of documents that give a configuration in part.
-/

namespace RollupBoundary.Configuration

open Json (changeEach_cons_iff changeEach_nil_iff changeEach_refl)

/-! ## The value of a configuration -/

lemma isSome_optionalMember (key : String) (s : Option String) :
    ∀ m ∈ optionalMember key s, m.1.isSome = true := by
  cases s with
  | none => exact List.forall_mem_nil _
  | some s => exact List.forall_mem_singleton.2 rfl

/-- The value that spells a configuration varies to itself if all names are kept. -/
lemma variesTo_toJson (c : Configuration) : c.VariesTo (fun _ => true) c.toJson := by
  refine .self (changeEach_cons_iff.2 ⟨_, _, ?log, changeEach_cons_iff.2 ⟨_, _, ?aliasing,
    changeEach_cons_iff.2 ⟨_, _, ?wire, changeEach_cons_iff.2 ⟨_, _, ?events,
      changeEach_nil_iff.2 rfl, rfl⟩, rfl⟩, rfl⟩, rfl⟩)
  case log => exact .self (changeEach_refl (by simp [member]))
  case aliasing => exact .self (changeEach_refl (isSome_optionalMember _ _))
  case wire => exact .self (changeEach_refl (by simp [member]))
  case events => exact .self (changeEach_refl (isSome_optionalMember _ _))

/-- The value that spells a configuration is read as the configuration. -/
theorem ofJson?_toJson (c : Configuration) : ofJson? c.toJson = some c :=
  ofJson?_of_variesTo c.variesTo_toJson

/-! ## Documents -/

/-- A configuration is read back from the document that is written for it, and from any other one
that differs from it only in blanks between its tokens.

The texts in it are arbitrary, with quotes, control characters and characters of any plane; so are
the names of its components, the greatest length, and which of the offset and the path there is. -/
theorem ofText_toText (c : Configuration) :
    ofText c.toText = .ok c ∧
      ∀ document : String, Json.Spells c.toJson.tokens document.toList →
        ofText document = .ok c := by
  have hall : ∀ document : String, Json.Spells c.toJson.tokens document.toList →
      ofText document = .ok c := by
    intro document hspells
    rw [ofText, Json.parse_of_spells hspells, Option.bind_some, ofJson?_toJson]
  exact ⟨hall c.toText (Json.spells_render c.toJson), hall⟩

/-- A configuration with texts that need escapes, a character beyond the basic plane, a component
without a name, the greatest number there is, and no offset. -/
def awkwardConfiguration : Configuration where
  log := ⟨"\"\\/\n\x07\x7f", .ofList [("b-é", "😀"), ("", "trace")], true⟩
  offset := none
  maxByteString := 18446744073709551615
  abiFile := some ""

/-- Its document with a blank before each token. -/
def awkwardDocument : String :=
  String.ofList (awkwardConfiguration.toJson.tokens.flatMap fun t => ' ' :: t.write)

theorem awkwardConfiguration_ofText :
    ofText awkwardConfiguration.toText = .ok awkwardConfiguration ∧
      Json.Spells awkwardConfiguration.toJson.tokens awkwardDocument.toList ∧
      ofText awkwardDocument = .ok awkwardConfiguration := by
  have hspells : Json.Spells awkwardConfiguration.toJson.tokens awkwardDocument.toList := by
    rw [awkwardDocument, String.toList_ofList]
    exact Json.spells_spaced _
  exact ⟨(ofText_toText _).1, hspells, (ofText_toText _).2 _ hspells⟩

end RollupBoundary.Configuration
