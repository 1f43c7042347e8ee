import Forth.Dictionary

/-!
# The listing of a dictionary

One line for every word: first the native words with their stack effects, then the composite
words, if there are any, with their bodies. Names are padded so that what follows them lines
up.
-/

namespace Forth

namespace Dictionary

/-- One line of the listing. -/
def listingLine (name text : String) : String :=
  "  " ++ name ++ String.ofList (List.replicate (8 - name.length) ' ') ++ " " ++ text ++ "\n"

def nativeListing : String :=
  String.join (Native.all.map fun w => listingLine w.name w.effect.picture)

def compositeListing (ws : List Composite) : String :=
  String.join (ws.map fun w => listingLine w.name w.body.text)

def listing (d : Dictionary) : String :=
  "Native words:\n" ++ nativeListing ++
    if d.composites.isEmpty then "" else "Composite words:\n" ++ compositeListing d.composites

end Dictionary

end Forth
