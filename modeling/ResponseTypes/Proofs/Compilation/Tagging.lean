import ResponseTypes.Proofs.Compilation.Making
import ResponseTypes.Proofs.Variant.Tagging

/-!
# Asking for the name of the type everywhere

The compiler can be told to ask for the name of the type in every selection set.  It does so at
every depth, and in every fragment; where the selections already have a field of that key, nothing
is added.  So the key must not be given to another field.

## What is here

* `Document.ReservesTypename` — no other field is given the key of the type name.
* `Compilation.asksTypename_of_contains`, `Compilation.all_keepsTypename_of_contains` — the name of
  the type is asked for in every compiled selection set, and under its key there is nothing else.
-/

set_option autoImplicit false

namespace ResponseTypes

/-- Among some selections no field other than the name of the type has its key. -/
def SelectionNode.ReservesTypename (nodes : List SelectionNode) : Prop :=
  ∀ name alias? inner, .field name alias? inner ∈ nodes → alias?.getD name = typenameField →
    name = typenameField

/-- Nowhere in a document a field other than the name of the type has its key. -/
def Document.ReservesTypename (d : Document) : Prop :=
  ∀ nodes, d.Contains nodes → SelectionNode.ReservesTypename nodes

namespace CompilationInput

variable {x : CompilationInput} {parent : String}

theorem Types.isTypename {name : String} {alias? : Option String} {f : Field}
    (h : x.Types parent name alias? f)
    (hreserved : alias?.getD name = typenameField → name = typenameField)
    (hkey : f.key = typenameField) : f.isTypename = true := by
  cases h with
  | typename => rfl
  | declared hname _ _ => exact absurd (hreserved hkey) hname

namespace Compiles

variable {nodes : List SelectionNode} {set : SelectionSet}

/-- Under the key of the type name, nothing else is selected. -/
theorem isTypename (h : x.Compiles parent nodes set)
    (hreserves : SelectionNode.ReservesTypename nodes) {f : Field} {set? : Option SelectionSet}
    (hmem : Selection.ofField f set? ∈ set.selections) (hkey : f.key = typenameField) :
    f.isTypename = true := by
  rcases h.field_cases hmem with ⟨rfl, -⟩ | ⟨name, alias?, inner, hnode, hf, -, -⟩
  · rfl
  · exact hf.isTypename (hreserves name alias? inner hnode) hkey

/-- **The name of the type is asked for** where the compiler is told to, either because it is among
the selections or because it is put in front of them. -/
theorem asksTypename (h : x.Compiles parent nodes set) (hadds : x.options.addsTypename = true)
    (hreserves : SelectionNode.ReservesTypename nodes) : set.AsksTypename := by
  by_cases hasks : SelectionNode.asksTypename nodes = true
  · obtain ⟨node, hnode, hkey⟩ := List.any_eq_true.1 hasks
    cases node with
    | field name alias? inner =>
      have hkey : alias?.getD name = typenameField := beq_iff_eq.1 hkey
      obtain rfl := hreserves name alias? inner hnode hkey
      obtain ⟨s, hs, hmakes⟩ := h.exists_makes_of_mem hnode
      cases hmakes with
      | leaf hf _ =>
        cases hf with
        | typename => exact ⟨_, hs, hkey⟩
        | declared hname _ _ => exact absurd rfl hname
      | branch hf hcomposite _ =>
        cases hf with
        | typename => cases hcomposite
        | declared hname _ _ => exact absurd rfl hname
    | spread name => cases hkey
    | inline typeCondition? inner => cases hkey
  · obtain ⟨u, u', selections, -, rfl⟩ := h.exists_eq_setOf
    refine ⟨Field.typename, ?_, rfl⟩
    rw [setOf, if_pos (by simp [hadds, hasks])]
    exact List.mem_cons_self

end Compiles
end CompilationInput

namespace Compilation

variable {schema : Schema} {document : Document} {options : Options} {c : Compilation}
  (h : compile schema document options = .ok c) (hadds : options.addsTypename = true)
  (hreserves : document.ReservesTypename)

include h hadds hreserves

/-- **Every compiled selection set asks for the name of the type.** -/
theorem asksTypename_of_contains {set : SelectionSet} (hset : c.Contains set) :
    set.AsksTypename := by
  obtain ⟨parent, nodes, hnodes, hcompiles, -⟩ := exists_compiles_of_contains h hset
  exact hcompiles.asksTypename hadds (hreserves nodes hnodes)

/-- **The key of the type name is kept for it** in everything that is compiled. -/
theorem all_keepsTypename_of_contains {set : SelectionSet} (hset : c.Contains set) :
    set.All Field.KeepsTypename := by
  refine set.all_of_contains fun below hbelow f set? hmem => ⟨fun hkey => ?_, ?_⟩
  · obtain ⟨parent, nodes, hnodes, hcompiles, -⟩ :=
      exists_compiles_of_contains h (hset.trans hbelow)
    exact hcompiles.isTypename (hreserves nodes hnodes) hmem hkey
  · rintro inner ⟨⟩
    exact asksTypename_of_contains h hadds hreserves
      ((hset.trans hbelow).trans (.branch .refl hmem))

end Compilation
end ResponseTypes
