/-
The version of the exchange format, which a native library reports through a symbol of its own.
-/
namespace NativeBridge

/-- the version of this library -/
def version : String := "0.1.0"

/-- the symbol through which a native library reports the version it was built for -/
def versionSymbol : String := "bindwire_abi_version"

end NativeBridge
