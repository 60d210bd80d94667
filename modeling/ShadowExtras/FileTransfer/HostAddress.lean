import ShadowExtras.FileTransfer.Filegetter

/-!
# Addresses of hosts

The plugins look the address of a host up in the same way: a host may be written as an address,
`none` and `localhost` stand for themselves, and any other name is given to `getaddrinfo`. When that
fails, the pointer that it should have set is used all the same (`freeaddrinfo(info)`), so that no
address comes out of it.
-/

namespace ShadowExtras.FileTransfer

open Foundation

/-- What the system computes: `inet_aton`, and the first address of `getaddrinfo`, where they
succeed. -/
structure Resolver where
  inetAton : Bytes → Option (Octets 4)
  getaddrinfo : Bytes → Option (Octets 4)

/-- Four octets. -/
theorem length_octets (a b c d : Byte) : [a, b, c, d].length = 4 := rfl

/-- The four octets of an address. -/
def octets (a b c d : Byte) : Octets 4 := ⟨[a, b, c, d], length_octets a b c d⟩

/-- `_filetransfer_HostnameCallback`, none if a pointer is used that was not set. -/
def hostnameCallback (resolver : Resolver) (hostname : Bytes) : Option (Octets 4) :=
  if caselessPrefix (ascii "none") hostname then some (octets 255 255 255 255)
  else if caselessPrefix (ascii "localhost") hostname then some (octets 127 0 0 1)
  else resolver.getaddrinfo hostname

/-- `service_filegetter_getaddr` with this callback. -/
def serviceGetaddr (resolver : Resolver) (host : Bytes) : Option (Octets 4) :=
  (resolver.inetAton host).orElse fun _ => hostnameCallback resolver host

end ShadowExtras.FileTransfer
