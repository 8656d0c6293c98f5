import KsmbdTools.Management.Proofs.Race
import KsmbdTools.Management.Proofs.Capacity
import KsmbdTools.Management.Proofs.ConnectionLimit
import KsmbdTools.Management.Proofs.References
import KsmbdTools.Management.Proofs.UserReferences
import KsmbdTools.Management.Proofs.Admission
import KsmbdTools.Management.Proofs.SharePayload
import KsmbdTools.Management.Proofs.HostPatterns
import KsmbdTools.Management.Proofs.Lockout
import KsmbdTools.Management.Proofs.LoginExt
import KsmbdTools.Rpc.Proofs.ReplyFits
import KsmbdTools.Rpc.Proofs.Drained
import KsmbdTools.Rpc.Proofs.Interfaces
import KsmbdTools.Rpc.Proofs.RefusedHandle
import KsmbdTools.Rpc.Proofs.SamrObjects
import KsmbdTools.Rpc.Proofs.Strings
import KsmbdTools.Rpc.Proofs.SidDomains
import KsmbdTools.Rpc.Proofs.Growable
import KsmbdTools.Spnego.Proofs.Nested
import KsmbdTools.Spnego.Proofs.OidCodec
import KsmbdTools.Config.Proofs.Spacing
import KsmbdTools.Config.Proofs.WritePermission
import KsmbdTools.Config.Proofs.Sizes
import KsmbdTools.Adduser.Proofs.Md4
import KsmbdTools.Adduser.Proofs.Database
import KsmbdTools.Management.Proofs.MappedFile
