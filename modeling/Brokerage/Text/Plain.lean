import Brokerage.Text.Digits

namespace Brokerage.Text

def natText (n : Nat) : String := String.ofList (digitsOf n)

def intText (n : Int) : String := String.ofList (intChars n)

def boolText (b : Bool) : String := if b then "true" else "false"

end Brokerage.Text
