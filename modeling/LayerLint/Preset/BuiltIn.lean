import LayerLint.Preset.Basic

/-!
# The built-in presets

Three usual layouts of a project, with the guidance that their reports give.
-/

namespace LayerLint.Preset

/-- Domain, application and infrastructure, with the domain in the middle. -/
def domainDriven : Preset where
  name := "ddd"
  description := "Domain-Driven Design with strict layering (domain -> app -> infra)"
  requiredDirectories :=
    [("internal/domain", "Core business logic, entities, value objects, domain services"),
      ("internal/app", "Application services, use cases, orchestration"),
      ("internal/infra", "Infrastructure implementations (DB, external APIs, messaging)"),
      ("cmd", "Application entry points")]
  directoriesImport :=
    [("internal/domain", []),
      ("internal/app", ["internal/domain"]),
      ("internal/infra", ["internal/domain"]),
      ("cmd", ["internal/app", "internal/infra"])]
  coverageThreshold := 75
  packageThresholds :=
    [("cmd", 40),
      ("internal/domain", 90),
      ("internal/app", 80),
      ("internal/infra", 60)]
  architecturalGoals := paragraph
    ["Domain-Driven Design (DDD) architecture aims to:",
      "- Keep business logic pure and isolated in the domain layer",
      "- Prevent infrastructure concerns from leaking into business logic",
      "- Enable the domain model to evolve independently of technical implementation",
      "- Make the business logic testable without external dependencies"]
  principles :=
    ["Domain layer has ZERO dependencies - it's the purest business logic",
      "Application layer orchestrates domain objects and use cases",
      "Infrastructure layer implements technical details (databases, APIs, messaging)",
      "Dependencies flow inward: cmd -> infra/app -> domain (never outward)",
      "Domain should never import from app or infra layers"]
  refactoringGuidance := paragraph
    ["To refactor toward DDD compliance:",
      "",
      "1. **Move business logic to domain layer**: pure rules, validation and domain services go to internal/domain",
      "2. **Define domain interfaces in domain layer**: if domain needs repositories or messaging, define " ++
        "interfaces there and implement them in infra",
      "3. **Use dependency injection**: pass infrastructure implementations to the application layer " ++
        "through constructors",
      "4. **Extract use cases to app layer**: orchestration across domain objects belongs in internal/app",
      "5. **Keep domain pure**: domain imports only the standard library",
      "",
      "Example refactoring:",
      "- Before: internal/domain/user.go imports internal/infra/database",
      "- After: internal/domain/user.go defines UserRepository, internal/infra/postgres.go implements it"]
  coverageGuidance := paragraph
    ["**Test Coverage Philosophy for DDD:**",
      "",
      "- **internal/domain (90%)**: pure, side-effect-free logic; test every business rule",
      "- **internal/app (80%)**: use cases and orchestration, with mocked domain and infra",
      "- **internal/infra (60%)**: adapter logic; integration tests for critical paths",
      "- **cmd (40%)**: flag parsing and wiring of the main workflows"]

/-- Entry points above public packages above private ones. -/
def simple : Preset where
  name := "simple"
  description := "Basic Go project structure (cmd -> pkg -> internal)"
  requiredDirectories :=
    [("cmd", "Application entry points"),
      ("pkg", "Public libraries and APIs"),
      ("internal", "Private application code")]
  directoriesImport :=
    [("cmd", ["pkg"]),
      ("pkg", ["internal"]),
      ("internal", [])]
  coverageThreshold := 60
  packageThresholds :=
    [("cmd", 30),
      ("pkg", 60),
      ("internal", 70)]
  architecturalGoals := paragraph
    ["Simple Go architecture aims to:",
      "- Separate public APIs (pkg) from private implementation (internal)",
      "- Keep command-line entry points minimal and focused",
      "- Enable code reuse through public packages",
      "- Protect internal implementation details from external use"]
  principles :=
    ["cmd contains only application entry points and CLI logic",
      "pkg contains public libraries that could be imported by other projects",
      "internal contains private code that cannot be imported externally",
      "Dependencies flow: cmd -> pkg -> internal",
      "internal packages should have zero dependencies on each other for maximum isolation"]
  refactoringGuidance := paragraph
    ["To refactor toward simple architecture compliance:",
      "",
      "1. **Consolidate entry points in cmd/**: main packages and CLI setup live in cmd/",
      "2. **Extract reusable code to pkg/**: public APIs usable by other projects go in pkg/",
      "3. **Move private implementation to internal/**: domain logic and utilities belong in internal/",
      "4. **Break internal coupling**: define interfaces in the importing package and bridge",
      "   internal packages with adapters in pkg/",
      "",
      "Example refactoring:",
      "- Before: internal/users/service.go imports internal/database directly",
      "- After: internal/users defines UserRepository, pkg/app wires internal/database into it"]
  coverageGuidance := paragraph
    ["**Test Coverage Philosophy for Simple Architecture:**",
      "",
      "- **internal (70%)**: core logic and data structures, thoroughly unit tested",
      "- **pkg (60%)**: public APIs that external consumers depend on",
      "- **cmd (30%)**: flag parsing and end-to-end workflows"]

/-- A core behind ports, and adapters that implement them. -/
def hexagonal : Preset where
  name := "hexagonal"
  description := "Ports & Adapters architecture (core -> ports -> adapters)"
  requiredDirectories :=
    [("internal/core", "Business logic and domain models"),
      ("internal/ports", "Interface definitions (inbound/outbound)"),
      ("internal/adapters", "Concrete implementations of ports"),
      ("cmd", "Application entry points")]
  directoriesImport :=
    [("internal/core", []),
      ("internal/ports", ["internal/core"]),
      ("internal/adapters", ["internal/ports", "internal/core"]),
      ("cmd", ["internal/ports", "internal/adapters"])]
  coverageThreshold := 75
  packageThresholds :=
    [("cmd", 40),
      ("internal/core", 90),
      ("internal/ports", 85),
      ("internal/adapters", 60)]
  architecturalGoals := paragraph
    ["Hexagonal (Ports & Adapters) architecture aims to:",
      "- Isolate business logic (core) from external concerns (I/O, frameworks, databases)",
      "- Define clear interfaces (ports) for all external interactions",
      "- Enable easy testing by swapping real adapters with test doubles",
      "- Support multiple adapters for the same port (e.g., REST and gRPC for same service)"]
  principles :=
    ["Core contains pure business logic with zero external dependencies",
      "Ports define interfaces for inbound requests and outbound dependencies",
      "Adapters implement ports using specific technologies (HTTP, gRPC, PostgreSQL, etc.)",
      "Dependencies point inward: cmd -> adapters -> ports -> core",
      "Core never imports ports or adapters (dependency inversion)"]
  refactoringGuidance := paragraph
    ["To refactor toward hexagonal architecture compliance:",
      "",
      "1. **Extract business logic to core/**: domain logic and core types go in internal/core",
      "2. **Define port interfaces in ports/**: inbound (UserService) and outbound (UserRepository)",
      "3. **Implement adapters in adapters/**: HTTP handlers, database clients, queue producers",
      "4. **Wire dependencies in cmd/**: build concrete adapters and inject them through ports",
      "",
      "Example refactoring:",
      "- Before: internal/core/user_service.go imports a database package directly",
      "- After: internal/ports/user_repository.go defines UserRepository,",
      "  internal/adapters/postgres/user_repo.go implements it, cmd/main.go wires them"]
  coverageGuidance := paragraph
    ["**Test Coverage Philosophy for Hexagonal Architecture:**",
      "",
      "- **internal/core (90%)**: business rules tested without any adapters",
      "- **internal/ports (85%)**: interface contracts exercised with mock implementations",
      "- **internal/adapters (60%)**: translation between ports and external systems",
      "- **cmd (40%)**: dependency wiring and startup"]

/-- Every preset. -/
def all : List Preset := [domainDriven, simple, hexagonal]

/-- The preset of a name. -/
def ofName? (name : String) : Option Preset := all.find? (·.name == name)

/-- The message about a name that no preset has. -/
def unknownMessage (name : String) : String :=
  s!"Unknown preset '{name}', available: " ++ Text.join ", " (Text.sort (all.map (·.name)))

end LayerLint.Preset
