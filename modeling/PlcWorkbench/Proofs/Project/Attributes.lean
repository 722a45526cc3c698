import PlcWorkbench.Proofs.Dictionary
import PlcWorkbench.Proofs.Project.Merge
import PlcWorkbench.Proofs.Xml.Accepted
import PlcWorkbench.Proofs.Xml.Listing

/-!
# Attributes are maps

Attributes are kept as a list, and looking one up goes by the first entry of its key. There is never
another one: the reader refuses a key that it has seen in the same tag, setting an attribute looks
for the key first, and every other way to get a tree takes over the attributes of trees that there
were. `Element.IsBuilt` is the set of trees that can be had by reading, building, editing and
merging; each way in is one constructor.

* `IsBuilt.hasDistinctKeys` : in such a tree no element has a key twice;
* `IsBuilt.attributes_isMap` : attributes behave as a finite map that remembers the order of its
  keys.
-/

namespace PlcWorkbench

open Xml (Element Tag)

namespace Xml.Element

/-- A tree that comes from reading a text or from building, and from any edits and merges after
that. -/
inductive IsBuilt : Element → Prop
  /-- The root of a document that was read. -/
  | read {source : String} {d : Document} (h : Document.parse source = .ok d) : IsBuilt d.root
  /-- A new element has a name only. -/
  | new (name : String) : IsBuilt { name }
  /-- An element inside, such as one that is found or taken out. -/
  | part {e inside : Element} (h : IsBuilt e) (hmem : inside ∈ e.elements) : IsBuilt inside
  | setAttribute {e : Element} (h : IsBuilt e) (key value : String) :
      IsBuilt (e.setAttribute key value)
  | pushChild {e child : Element} (h : IsBuilt e) (hchild : IsBuilt child) :
      IsBuilt (e.pushChild child)
  | pushLeaf {e : Element} (h : IsBuilt e) (l : Leaf) : IsBuilt (e.pushLeaf l)
  /-- What a removal leaves. -/
  | removal {e : Element} (h : IsBuilt e) (condition : Element → Bool) :
      IsBuilt (e.removal condition).2
  /-- The tree around an element inside it that was edited. -/
  | around {α : Type} {e e' : Element} {answer : α} (h : IsBuilt e) (name : String)
      (edit : Element → α × Element)
      (hedit : ∀ target, e.findFirst? name = some target → IsBuilt (edit target).2)
      (hupdate : e.updateFirst? name edit = some (answer, e')) : IsBuilt e'
  /-- The root of a project after a merge, whether it succeeded or not. -/
  | merge {p : Project} {a : Artifact} (h : IsBuilt p.document.root) (ha : IsBuilt a.payload) :
      IsBuilt (p.merge a).1.document.root

/-- **No key stands twice** in any tag of a tree that was built. -/
theorem IsBuilt.hasDistinctKeys {e : Element} (h : e.IsBuilt) :
    e.All (fun _ => True) Tag.HasDistinctKeys := by
  induction h with
  | read h => exact (Document.isSound_of_parse h).root.imp (fun _ _ => trivial) fun _ ht => ht
  | new name => exact ⟨List.nodup_nil, trivial⟩
  | part _ hmem ih => exact ih.of_mem hmem
  | setAttribute _ key value ih => exact ⟨Dictionary.nodup_keys_set ih.1 key value, ih.2⟩
  | pushChild _ _ ih ihChild =>
    exact ⟨ih.1, Content.all_append.2 ⟨ih.2, ihChild.1, ihChild.2, trivial⟩⟩
  | pushLeaf _ l ih => exact ⟨ih.1, Content.all_append.2 ⟨ih.2, trivial, trivial⟩⟩
  | removal _ condition ih => exact ih.removal condition
  | around _ name edit _ hupdate ih ihEdit => exact ih.updateFirst? ihEdit hupdate
  | @merge p a _ _ ih ihPayload =>
    obtain ⟨root, hroot, -, hall⟩ := Project.exists_withRoot_merge p a
    rw [hroot]
    exact hall ih ihPayload

/-- The element with attributes set one after another. -/
def setAttributes (e : Element) (settings : List (String × String)) : Element :=
  settings.foldl (fun e setting => e.setAttribute setting.1 setting.2) e

/-- Setting attributes sets them in the dictionary. -/
theorem attributes_setAttributes (e : Element) (settings : List (String × String)) :
    (e.setAttributes settings).attributes = Dictionary.setAll e.attributes settings := by
  induction settings generalizing e with
  | nil => rfl
  | cons setting rest ih => exact ih (e.setAttribute setting.1 setting.2)

/-- **Attributes are maps.** In every element of a tree that was built the keys are distinct. After
any settings the value of a key is the one that was set last, else the one that was there; the keys
that were there keep their order, and the others come after them in the order in which they were
first set. -/
theorem IsBuilt.attributes_isMap {e : Element} (h : e.IsBuilt) :
    ∀ inside ∈ e.elements, (Dictionary.keys inside.attributes).Nodup
      ∧ ∀ settings : List (String × String),
        (∀ key, (inside.setAttributes settings).attribute? key
            = (settings.reverse.lookup key).or (inside.attribute? key))
          ∧ Dictionary.keys (inside.setAttributes settings).attributes
            = Dictionary.keys inside.attributes
              ++ ((settings.map (·.1)).filter
                  (· ∉ Dictionary.keys inside.attributes)).eraseDups := by
  intro inside hinside
  refine ⟨(h.hasDistinctKeys.of_mem hinside).1, fun settings => ⟨fun key => ?_, ?_⟩⟩
  · rw [attribute?, attributes_setAttributes, Dictionary.get?_setAll]
    rfl
  · rw [attributes_setAttributes, Dictionary.keys_setAll]

/-- The definition of `A`, built from nothing. -/
def builtDefinition : Element := setAttribute { name := "AddOnInstructionDefinition" } "Name" "A"

/-- A project that was read, with the built definition merged into it and the definition found there
edited. -/
theorem IsBuilt.attributes_isMap_edited :
    ∃ e inside : Element, e.IsBuilt ∧ inside ∈ e.elements
      ∧ inside.attributes = [("Name", "A"), ("Revision", "1")]
      ∧ (Dictionary.keys inside.attributes).Nodup
      ∧ (inside.setAttributes [("Use", "x"), ("Revision", "2"), ("Use", "y")]).attribute? "Use"
          = some "y"
      ∧ Dictionary.keys (inside.setAttributes [("Use", "x"), ("Revision", "2"),
          ("Use", "y")]).attributes
        = ["Name", "Revision", "Use"] := by
  have hread : Document.parse "<c k='1'><AddOnInstructionDefinitions/></c>"
      = .ok ⟨none, [],
          ⟨⟨"c", [("k", "1")]⟩, .element ⟨"AddOnInstructionDefinitions", []⟩ .empty .empty⟩⟩ := by
    decide +kernel
  have definition : builtDefinition.IsBuilt := (IsBuilt.new _).setAttribute "Name" "A"
  have merged :=
    IsBuilt.merge (p := ⟨_⟩) (a := ⟨.addOnInstruction, "A", builtDefinition⟩)
      (.read hread) definition
  have edited :=
    merged.around "AddOnInstructionDefinition" (fun e => ((), e.setAttribute "Revision" "1"))
    (fun target htarget =>
      (merged.part (Element.mem_elements_of_findFirst? htarget).1).setAttribute "Revision" "1") rfl
  obtain ⟨distinct, settings⟩ :=
    edited.attributes_isMap (builtDefinition.setAttribute "Revision" "1") (by decide)
  obtain ⟨values, keys⟩ := settings [("Use", "x"), ("Revision", "2"), ("Use", "y")]
  exact ⟨_, _, edited, by decide, rfl, distinct, values "Use", keys⟩

end Xml.Element

end PlcWorkbench
