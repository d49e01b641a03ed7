import TaxiService.Spec.HttpServer

/-!
# The MongoDB users behind the server

The `users` collection is what the server found at its start and, after it, one
document for each create request that was answered 201 (`MongoServed`). A login
is looked up before its document is inserted, in another call, so two documents
can have one login. But only if their requests overlapped: the second one has
looked before the first one inserted. And a read answers from the collection of
one moment, in which its request was being handled.
-/

namespace TaxiService.Spec

open TaxiService.Lib TaxiService.Model

variable (json : MongoJson)

variable (server : MongoServer) (mongoUsers : List MongoUser)

end TaxiService.Spec
