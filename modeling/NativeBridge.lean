import NativeBridge.Call.Run
import NativeBridge.Foreign.Session
import NativeBridge.Logging
import NativeBridge.Proofs.Call.Balance
import NativeBridge.Proofs.Call.References
import NativeBridge.Proofs.Call.Refining
import NativeBridge.Proofs.Call.Results
import NativeBridge.Proofs.Codec.Faults
import NativeBridge.Proofs.Codec.Image
import NativeBridge.Proofs.Declaration
import NativeBridge.Proofs.Foreign.Conservation
import NativeBridge.Proofs.Foreign.Copy
import NativeBridge.Proofs.NativeType.Agreement
import NativeBridge.Proofs.NativeType.Order
import NativeBridge.Proofs.NativeType.Ownership
import NativeBridge.Proofs.Reader.Exact
import NativeBridge.Proofs.Registry.Build
import NativeBridge.Registry.Configured
import NativeBridge.Settings.Load
import NativeBridge.Wire.Dictionary
import NativeBridge.Wire.Tuple
import NativeBridge.Proofs.Codec.Conforms
import NativeBridge.Proofs.Foreign.OneKind
import NativeBridge.Proofs.Stacks
import NativeBridge.Proofs.Call.Integers
import NativeBridge.Proofs.Files.LibrarySearch
import NativeBridge.Proofs.Settings.Nearest
