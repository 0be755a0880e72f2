import Conventions.Technology.Basic

/-!
# Technology signatures

The keys by which technologies are recognised, for each language family. Short
keys are safe where imports are compared by package; where a key may stand
anywhere inside an import, the table spells out enough of the path.
-/

namespace Conventions.Technology

def framework (key name : String) : String × Technology := (key, ⟨.framework, name⟩)

def library (key name : String) : String × Technology := (key, ⟨.library, name⟩)

def database (key name : String) : String × Technology := (key, ⟨.database, name⟩)

/-- Keys inside Go import paths. -/
def goSignatures : List (String × Technology) :=
  [framework "github.com/gin-gonic/gin" "Gin",
    framework "github.com/labstack/echo" "Echo",
    framework "github.com/gofiber/fiber" "Fiber",
    framework "github.com/gorilla/mux" "Gorilla Mux",
    framework "github.com/go-chi/chi" "Chi",
    framework "google.golang.org/grpc" "gRPC",
    library "github.com/spf13/cobra" "Cobra",
    library "github.com/spf13/viper" "Viper",
    library "go.uber.org/zap" "Zap",
    library "github.com/sirupsen/logrus" "Logrus",
    library "github.com/rs/zerolog" "zerolog",
    library "github.com/stretchr/testify" "Testify",
    library "github.com/golang/mock" "gomock",
    library "go.uber.org/mock" "gomock",
    library "github.com/google/wire" "Wire",
    library "go.uber.org/fx" "Fx",
    database "gorm.io/gorm" "GORM",
    database "github.com/jmoiron/sqlx" "sqlx",
    database "github.com/jackc/pgx" "pgx",
    database "github.com/lib/pq" "pq",
    database "github.com/go-sql-driver/mysql" "MySQL",
    database "github.com/redis/go-redis" "Redis",
    database "github.com/go-redis/redis" "Redis",
    database "go.mongodb.org/mongo-driver" "MongoDB",
    database "database/sql" "database/sql"]

/-- Root modules of Python imports. -/
def pythonSignatures : List (String × Technology) :=
  [framework "django" "Django",
    framework "flask" "Flask",
    framework "fastapi" "FastAPI",
    framework "starlette" "Starlette",
    framework "tornado" "Tornado",
    library "requests" "Requests",
    library "httpx" "HTTPX",
    library "aiohttp" "aiohttp",
    library "pydantic" "Pydantic",
    library "numpy" "NumPy",
    library "pandas" "pandas",
    library "celery" "Celery",
    library "click" "Click",
    library "typer" "Typer",
    library "rich" "Rich",
    library "pytest" "pytest",
    database "sqlalchemy" "SQLAlchemy",
    database "psycopg2" "psycopg2",
    database "psycopg" "psycopg",
    database "pymongo" "PyMongo",
    database "motor" "Motor",
    database "redis" "Redis",
    database "peewee" "Peewee",
    database "sqlite3" "SQLite"]

/-- Packages of TypeScript and JavaScript imports. -/
def scriptSignatures : List (String × Technology) :=
  [framework "react" "React",
    framework "next" "Next.js",
    framework "vue" "Vue",
    framework "svelte" "Svelte",
    framework "@angular/" "Angular",
    framework "express" "Express",
    framework "@nestjs/" "NestJS",
    framework "fastify" "Fastify",
    framework "koa" "Koa",
    library "axios" "Axios",
    library "lodash" "Lodash",
    library "rxjs" "RxJS",
    library "zod" "Zod",
    library "inversify" "InversifyJS",
    library "jest" "Jest",
    database "mongoose" "Mongoose",
    database "@prisma/client" "Prisma",
    database "typeorm" "TypeORM",
    database "sequelize" "Sequelize",
    database "pg" "PostgreSQL (pg)",
    database "mysql2" "MySQL",
    database "redis" "Redis",
    database "ioredis" "Redis"]

/-- Keys inside Rust use declarations. -/
def rustSignatures : List (String × Technology) :=
  [library "tokio" "Tokio",
    library "serde" "Serde",
    library "reqwest" "Reqwest",
    library "anyhow" "Anyhow",
    library "thiserror" "thiserror",
    library "clap" "Clap",
    framework "axum" "Axum",
    framework "actix_web" "Actix-web",
    framework "rocket" "Rocket",
    database "sqlx" "sqlx",
    database "diesel" "Diesel"]

end Conventions.Technology
