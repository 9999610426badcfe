import LayerLint.Yaml.Tag

/-!
# Documents as trees of nodes

What a document says before its scalars get values: scalars as text with a tag, lists and maps with a tag, and
names. An anchor gives a node a name; an alias stands for the node of a name. Every node carries a mark, as the
values do.
-/

namespace LayerLint.Yaml

/-- A node of a document. -/
inductive Node (ι : Type) where
  | scalar (mark : ι) (anchor : Option String) (tag : Tag) (text : String)
  | list (mark : ι) (anchor : Option String) (tag : Tag) (items : List (Node ι))
  | map (mark : ι) (anchor : Option String) (tag : Tag) (entries : List (Node ι × Node ι))
  | alias (name : String)

instance {ι : Type} : Inhabited (Node ι) := ⟨.alias ""⟩

end LayerLint.Yaml
