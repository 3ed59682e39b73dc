/-
The name and version that the program goes by.
-/
namespace AlphaCodemod

def programName : String := "opacity-migrate"

def programVersion : String := "0.1.0"

end AlphaCodemod
