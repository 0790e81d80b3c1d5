import Mathlib
import RollupBoundary.Configuration
import RollupBoundary.Proofs.Json.Record
import RollupBoundary.Proofs.Logging.Components

/-!
# Documents that give a configuration in part

A document need not be the one that is written for a configuration.  Sections of it may be missing,
and so may members of a section; there may be members that nobody knows, with any values; the
members of each object may come in any order, those of the components too; and blanks may stand
between any two tokens.  Such a document is a *variation* (`Configuration.VariesTo`), and it is read
as the configuration with the standard value for each thing that is missing and with everything else
as it was (`Configuration.ofText_of_variesTo`).

Each reader of a section is followed on its own (`readLog_of_varies` and the like), from the values
that the record still has.  The components alone are no record: they keep all of their entries, and
as their names differ, the order in which these come is forgotten
(`Logging.Components.ofList_of_perm`).
-/

namespace RollupBoundary

open Logging

/-! ## Variations -/

/-- The settings with the standard ones in place of those whose names are not kept. -/
def Logging.Settings.keeping (kept : String → Bool) (s : Settings) : Settings where
  level := if kept "level" then s.level else Settings.standard.level
  components := if kept "components" then s.components else Settings.standard.components
  json := if kept "json" then s.json else Settings.standard.json

namespace Configuration

/-- The sections of a document. -/
def sectionNames : List String :=
  ["log", "alias", "wire", "events"]

/-- The members of a section.  No two sections have members of one name, nor is a section called
like a member, so that one set of names says what is kept everywhere. -/
def memberNames : String → List String
  | "log" => ["level", "components", "json"]
  | "alias" => ["offset"]
  | "wire" => ["max_bytestring_len"]
  | "events" => ["abi_path"]
  | _ => []

/-- That a value is made from the one that spells a configuration.

Sections and members of sections are left out unless their names are kept.  Members of unknown names
are added to the document and to its sections, with any values.  The members of each object are put
in some order, the components too. -/
def VariesTo (c : Configuration) (kept : String → Bool) (j : Json) : Prop :=
  Json.Varies sectionNames kept
    (fun name => Json.Varies (memberNames name) kept fun _ => Json.Reorders) c.toJson j

/-- The configuration with the standard value in place of each one whose name is not kept, or the
name of its section. -/
def keeping (kept : String → Bool) (c : Configuration) : Configuration where
  log := if kept "log" then c.log.keeping kept else standard.log
  offset := if kept "alias" then (if kept "offset" then c.offset else none) else standard.offset
  maxByteString :=
    if kept "wire" then
      (if kept "max_bytestring_len" then c.maxByteString else standardMaxByteString)
    else standard.maxByteString
  abiFile :=
    if kept "events" then (if kept "abi_path" then c.abiFile else none) else standard.abiFile

example (c : Configuration) :
    c.keeping (fun _ => true) = c ∧ c.keeping (fun _ => false) = standard :=
  ⟨rfl, rfl⟩

/-! ## Sections -/

variable {kept : String → Bool} {j : Json}

lemma stringMembers?_map (es : List (String × String)) :
    Json.stringMembers? (.object (es.map fun e => member e.1 (text e.2))) = some es := by
  rw [Json.stringMembers?]
  refine (Json.mapM_map_eq_some fun e _ => ?_).trans (congrArg some (List.map_id es))
  rfl

/-- Entries are read as pairs in the order in which they come. -/
lemma stringMembers?_of_perm {es : List (String × String)} {members : List (JsonText × Json)}
    (h : members.Perm (es.map fun e => member e.1 (text e.2))) :
    ∃ es', Json.stringMembers? (.object members) = some es' ∧ es'.Perm es := by
  have hread := stringMembers?_map es
  rw [Json.stringMembers?, Json.mapM_eq_some_iff] at hread
  obtain ⟨es', hes', hperm⟩ := List.perm_comp_forall₂ h hread
  exact ⟨es', Json.mapM_eq_some_iff.2 hes', hperm⟩

/-- The section on the log, of which each member has a standard value of its own. -/
lemma readLog_of_varies {s : Settings}
    (h : Json.Varies (memberNames "log") kept (fun _ => Json.Reorders) (.object [
      member "level" (text s.level),
      member "components" (.object (s.components.entries.map fun e => member e.1 (text e.2))),
      member "json" (.bool s.json)]) j) :
    readLog j = some (s.keeping kept) := by
  obtain ⟨changed, hchanged, hrecord⟩ := Json.record?_of_varies h
  simp only [member, Json.changeEach_cons_iff, Json.changeEach_nil_iff] at hchanged
  obtain ⟨_, _, hlevel, ⟨_, _, hcomponents, ⟨_, _, hjson, rfl, rfl⟩, rfl⟩, rfl⟩ := hchanged
  obtain ⟨components, rfl, hperm⟩ := hcomponents.exists_perm
  obtain ⟨es, hread, hes⟩ := stringMembers?_of_perm hperm
  cases hlevel
  cases hjson
  have hvalues : Json.record? (memberNames "log") (.object [
      (some "level", text s.level), (some "components", .object components),
      (some "json", .bool s.json)]) =
      some [some (text s.level), some (.object components), some (.bool s.json)] := by
    simp [memberNames, Json.record?, Json.field?, Json.valuesOf]
  have hlevel : Json.string? (text s.level) = some s.level := rfl
  have hjson : Json.bool? (.bool s.json) = some s.json := rfl
  have hlist : Components.ofList (if kept "components" then es else []) =
      if kept "components" then s.components else Settings.standard.components := by
    rw [apply_ite Components.ofList, Components.ofList_of_perm hes]
    rfl
  rw [readLog, ← memberNames, hrecord _ hvalues]
  simp only [Json.keptValues, memberNames, List.zipWith_cons_cons, List.zipWith_nil_right,
    Option.bind_eq_bind, Option.bind_some, Json.orDefault_kept _ hlevel,
    Json.orDefault_kept _ hread, Json.orDefault_kept _ hjson, hlist, Option.pure_def]
  rfl

/-- A section whose only member is a text that may be missing gives the text if it is there and its
name is kept. -/
lemma orDefault_of_varies {key : String} {s : Option String}
    (h : Json.Varies [key] kept (fun _ => Json.Reorders) (.object (optionalMember key s)) j) :
    ∃ value, j.record? [key] = some [value] ∧
      Json.orDefault none (Json.optional? Json.string?) value =
        some (if kept key then s else none) := by
  obtain ⟨changed, hchanged, hrecord⟩ := Json.record?_of_varies h
  cases s with
  | none =>
    rw [optionalMember, Json.changeEach_nil_iff] at hchanged
    subst hchanged
    have hvalues : Json.record? [key] (.object []) = some [none] := by
      simp [Json.record?, Json.field?, Json.valuesOf]
    refine ⟨_, hrecord _ hvalues, ?_⟩
    simp only [ite_self]
    rfl
  | some s =>
    simp only [optionalMember, member, Json.changeEach_cons_iff, Json.changeEach_nil_iff]
      at hchanged
    obtain ⟨_, _, hvalue, rfl, rfl⟩ := hchanged
    cases hvalue
    have hvalues : Json.record? [key] (.object [(some key, text s)]) = some [some (text s)] := by
      simp [Json.record?, Json.field?, Json.valuesOf]
    exact ⟨_, hrecord _ hvalues, Json.orDefault_kept _ rfl⟩

lemma readAlias_of_varies {offset : Option String}
    (h : Json.Varies (memberNames "alias") kept (fun _ => Json.Reorders)
      (.object (optionalMember "offset" offset)) j) :
    readAlias j = some (if kept "offset" then offset else none) := by
  obtain ⟨value, hrecord, hvalue⟩ := orDefault_of_varies h
  rw [readAlias, hrecord]
  exact hvalue

lemma readEvents_of_varies {path : Option String}
    (h : Json.Varies (memberNames "events") kept (fun _ => Json.Reorders)
      (.object (optionalMember "abi_path" path)) j) :
    readEvents j = some (if kept "abi_path" then path else none) := by
  obtain ⟨value, hrecord, hvalue⟩ := orDefault_of_varies h
  rw [readEvents, hrecord]
  exact hvalue

lemma toUInt64?_ofNat (n : UInt64) : (JsonNumber.ofNat n.toNat).toUInt64? = some n := by
  simp [JsonNumber.toUInt64?, JsonNumber.ofNat, n.toNat_lt]

lemma readWire_of_varies {max : UInt64}
    (h : Json.Varies (memberNames "wire") kept (fun _ => Json.Reorders)
      (.object [member "max_bytestring_len" (.number (.ofNat max.toNat))]) j) :
    readWire j =
      some (if kept "max_bytestring_len" then max else standardMaxByteString) := by
  obtain ⟨changed, hchanged, hrecord⟩ := Json.record?_of_varies h
  simp only [member, Json.changeEach_cons_iff, Json.changeEach_nil_iff] at hchanged
  obtain ⟨_, _, hmax, rfl, rfl⟩ := hchanged
  cases hmax
  have hvalues : Json.record? (memberNames "wire")
      (.object [(some "max_bytestring_len", .number (.ofNat max.toNat))]) =
      some [some (.number (.ofNat max.toNat))] := by
    simp [memberNames, Json.record?, Json.field?, Json.valuesOf]
  have hread : Json.uint64? (.number (.ofNat max.toNat)) = some max := toUInt64?_ofNat max
  rw [readWire, ← memberNames, hrecord _ hvalues]
  exact Json.orDefault_kept _ hread

/-! ## Documents -/

lemma record?_sections (log aliasing wire events : Json) :
    Json.record? ["log", "alias", "wire", "events"] (.object [
      member "log" log, member "alias" aliasing, member "wire" wire, member "events" events]) =
      some [some log, some aliasing, some wire, some events] := by
  simp [Json.record?, Json.field?, Json.valuesOf, member]

/-- A variation is read as the configuration with standard values for what is left out. -/
theorem ofJson?_of_variesTo {c : Configuration} (h : c.VariesTo kept j) :
    ofJson? j = some (c.keeping kept) := by
  rw [VariesTo, toJson] at h
  obtain ⟨changed, hchanged, hrecord⟩ := Json.record?_of_varies h
  simp only [member, Json.changeEach_cons_iff, Json.changeEach_nil_iff] at hchanged
  obtain ⟨log, _, hlog, ⟨aliasing, _, halias, ⟨wire, _, hwire,
    ⟨events, _, hevents, rfl, rfl⟩, rfl⟩, rfl⟩, rfl⟩ := hchanged
  have hvalues := record?_sections log aliasing wire events
  rw [ofJson?, ← sectionNames, hrecord _ hvalues]
  simp only [Json.keptValues, sectionNames, List.zipWith_cons_cons, List.zipWith_nil_right,
    Option.bind_eq_bind, Option.bind_some, Json.orDefault_kept _ (readLog_of_varies hlog),
    Json.orDefault_kept _ (readAlias_of_varies halias),
    Json.orDefault_kept _ (readWire_of_varies hwire),
    Json.orDefault_kept _ (readEvents_of_varies hevents), Option.pure_def]
  rfl

/-- A document that gives a configuration in part is read as the configuration with the standard
values for the rest.

The document spells, with any blanks between its tokens, a value that is made from that of the
configuration by leaving out sections and members of sections, adding members of unknown names, and
putting the members of each object in any order.  Nor does it matter how else the document writes
the value, such as by other escapes in its texts. -/
theorem ofText_of_variesTo {c : Configuration} (h : c.VariesTo kept j) :
    (∀ document : String, Json.Spells j.tokens document.toList →
      ofText document = .ok (c.keeping kept)) ∧
    ∀ document : String, Json.parse document = some j →
      ofText document = .ok (c.keeping kept) := by
  have hparse : ∀ document : String, Json.parse document = some j →
      ofText document = .ok (c.keeping kept) := by
    intro document hdocument
    rw [ofText, hdocument, Option.bind_some, ofJson?_of_variesTo h]
  exact ⟨fun document hspells => hparse document (Json.parse_of_spells hspells), hparse⟩

/-- A configuration in which nothing has its standard value. -/
def unusualConfiguration : Configuration where
  log := ⟨"debug", .ofList [("evm", "trace"), ("wire", "off")], true⟩
  offset := some "0x01"
  maxByteString := 7
  abiFile := some "a.json"

/-- It in part, without the section on streams, the level and the offset: members are in reverse
order, and there are others, some of which are known in another place. -/
def unusualInPart : Json :=
  .object [
    member "level" (.array [.object [member "log" .null], .number (.ofNat 8)]),
    member "events" (.object [member "abi_path" (text "a.json")]),
    member "alias" (.object [member "Offset" (.bool false)]),
    member "log" (.object [
      member "json" (.bool true),
      member "components" (.object [member "wire" (text "off"), member "evm" (text "trace")])])]

theorem unusualInPart_ofText :
    let kept : String → Bool := fun name => decide (name ∉ ["wire", "level", "offset"])
    let document := String.ofList (unusualInPart.tokens.flatMap fun t => ' ' :: t.write)
    unusualConfiguration.VariesTo kept unusualInPart ∧
      Json.Spells unusualInPart.tokens document.toList ∧
      ofText document = .ok
        ⟨⟨"info", unusualConfiguration.log.components, true⟩, none, 262144, some "a.json"⟩ := by
  intro kept document
  have hlog : Json.Varies (memberNames "log") kept (fun _ => Json.Reorders)
      (.object [
        member "level" (text "debug"),
        member "components" (.object [member "evm" (text "trace"), member "wire" (text "off")]),
        member "json" (.bool true)])
      (.object [
        member "json" (.bool true),
        member "components" (.object [member "wire" (text "off"), member "evm" (text "trace")])]) :=
    .object (Json.changeEach_cons_iff.2 ⟨_, _, .refl _, Json.changeEach_cons_iff.2
      ⟨_, _, .object (.swap _ _ _), Json.changeEach_refl (by decide), rfl⟩, rfl⟩)
      (List.forall_mem_nil _) (.swap _ _ _)
  have halias : Json.Varies (memberNames "alias") kept (fun _ => Json.Reorders)
      (.object [member "offset" (text "0x01")]) (.object [member "Offset" (.bool false)]) :=
    .object (Json.changeEach_refl (by decide))
      (List.forall_mem_singleton.2 ⟨"Offset", rfl, by decide⟩) (.refl _)
  have hwire : Json.Varies (memberNames "wire") kept (fun _ => Json.Reorders)
      (.object [member "max_bytestring_len" (.number (.ofNat 7))])
      (.object [member "max_bytestring_len" (.number (.ofNat 7))]) :=
    .object (Json.changeEach_refl (by decide)) (List.forall_mem_nil _) (.refl _)
  have hevents : Json.Varies (memberNames "events") kept (fun _ => Json.Reorders)
      (.object [member "abi_path" (text "a.json")])
      (.object [member "abi_path" (text "a.json")]) :=
    .object (Json.changeEach_refl (by decide)) (List.forall_mem_nil _) (.refl _)
  have hvaries : unusualConfiguration.VariesTo kept unusualInPart := by
    refine .object (Json.changeEach_cons_iff.2 ⟨_, _, hlog, Json.changeEach_cons_iff.2
      ⟨_, _, halias, Json.changeEach_cons_iff.2 ⟨_, _, hwire, Json.changeEach_cons_iff.2
      ⟨_, _, hevents, Json.changeEach_nil_iff.2 rfl, rfl⟩, rfl⟩, rfl⟩, rfl⟩)
      ?_ ((List.reverse_perm').1 (.refl _))
    exact List.forall_mem_singleton.2 ⟨"level", rfl, by decide⟩
  have hspells : Json.Spells unusualInPart.tokens document.toList := by
    rw [String.toList_ofList]
    exact Json.spells_spaced _
  exact ⟨hvaries, hspells, ((ofText_of_variesTo hvaries).1 document hspells).trans rfl⟩

end Configuration

end RollupBoundary
