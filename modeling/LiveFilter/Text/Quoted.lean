/-! # Quoted texts

A quoted text stands between two quotes, and every quote inside it is written twice.
-/

namespace LiveFilter.Quoted

/-- Every occurrence of `quote` twice, all other characters once. -/
def double (quote : Char) : List Char → List Char
  | [] => []
  | c :: cs => if c = quote then c :: c :: double quote cs else c :: double quote cs

def wrapChars (quote : Char) (cs : List Char) : List Char :=
  quote :: (double quote cs ++ [quote])

def wrap (quote : Char) (text : String) : String :=
  String.ofList (wrapChars quote text.toList)

@[simp] theorem toList_wrap (quote : Char) (text : String) :
    (wrap quote text).toList = wrapChars quote text.toList := by
  simp [wrap]

end LiveFilter.Quoted
